/-
This file relates a run of a finished function to the evaluation of its source. While a function is
being built, the code that its finished form has behind the cursor is still open, so a statement
about a run speaks of the finished function and of the states of the builder between which the code
was made. Every variable is matched with the operand or the stack slot that lowering has bound it
to. What runs in between may set new registers and write to the slots of variables; everything else
that was there before is kept.
-/

import TreeLowering.Proofs.Machine.Frame
import TreeLowering.Proofs.Meaning.Build
import TreeLowering.Proofs.Meaning.Scope
import TreeLowering.Proofs.Meaning.Typed
import Mathlib.Logic.Relation

namespace TreeLowering.Ir.Setting

variable (setting : Setting) (function : Function)

/-- Control comes from one point to another. -/
def Reaches : Point → Point → Prop :=
  Relation.ReflTransGen fun point next => setting.advance? function point = some (.running next)

/-- Control comes from a point to the end of the function, with that result. -/
def Finishes (point : Point) (result : Option Datum) : Prop :=
  ∃ fuel store, setting.finish? function fuel point = some (result, store)

variable {setting function}

theorem Reaches.finishes {point next : Point} {result : Option Datum}
    (reaches : setting.Reaches function point next) (finishes : setting.Finishes function next result) :
    setting.Finishes function point result := by
  induction reaches using Relation.ReflTransGen.head_induction_on with
  | refl => exact finishes
  | @head point middle step _ inductionHypothesis =>
    obtain ⟨fuel, store, finished⟩ := inductionHypothesis
    refine ⟨fuel + 1, store, ?_⟩
    rw [finish?, step]
    exact finished

end TreeLowering.Ir.Setting

namespace TreeLowering.Lowering

open TreeLowering.Ir TreeLowering.Tree

/-! ### Runs -/

/-- A run of a finished function, in which every slot has a region of its own. -/
structure Run where
  setting : Setting
  function : Function
  /-- The region of a slot. -/
  home : ValueName → Nat
  arranged : function.Arranged
  apart : ∀ slot ∈ function.slots, ∀ slot' ∈ function.slots,
    home slot.name = home slot'.name → slot.name = slot'.name

/-- What lowering knows where it lowers an expression, and what typing knows there. -/
structure Site where
  env : Env
  prims : Variables
  /-- The type of what the function returns. -/
  ret : Prim
  /-- Whether the loop around the expression may be left. -/
  leaves : Bool

/-- Two sites in one loop of one function. -/
structure Site.Alike (site site' : Site) : Prop where
  frames : site'.env.frames = site.env.frames
  ret : site'.ret = site.ret
  leaves : site'.leaves = site.leaves

theorem Site.Alike.refl (site : Site) : site.Alike site := ⟨rfl, rfl, rfl⟩

theorem Site.Alike.trans {site site' site'' : Site} (first : site.Alike site')
    (second : site'.Alike site'') : site.Alike site'' :=
  ⟨second.frames.trans first.frames, second.ret.trans first.ret, second.leaves.trans first.leaves⟩

theorem Site.Alike.target? {site site' : Site} (alike : site.Alike site') (jump : LoopJump) :
    site'.env.target? jump = site.env.target? jump := by
  rw [Env.target?, Env.innermostLoop?, alike.frames]
  rfl

/-- The slot that a name is bound to. -/
def Binding.slotName? : Binding → Option ValueName
  | .slot (.reg name _) _ _ => some name
  | _ => none

/-- The slots that names are bound to. -/
def slotNames (scopes : Scopes Binding) : List ValueName :=
  scopes.flatten.filterMap fun entry => entry.2.slotName?

namespace Run

variable (run : Run)

def Reaches : Point → Point → Prop := run.setting.Reaches run.function

def Finishes : Point → Option Datum → Prop := run.setting.Finishes run.function

/-- The point that the cursor stands for in the finished function. -/
def spot (builder : Builder) (id : BlockId) (previous : Option BlockId) (state : State) : Point :=
  ⟨previous, id, (run.function.plain id).drop (builder.body.plain id).length, state⟩

/-- The beginning of a block. -/
def start (id : BlockId) (previous : Option BlockId) (state : State) : Point :=
  ⟨previous, id, run.function.plain id, state⟩

/-- Whether an operand stands for a scalar. -/
structure Shows (state : State) (value : Value) (scalar : Scalar) : Prop where
  ty : value.ty = .prim scalar.prim
  datum : run.setting.operand? state.regs value = some scalar.datum

/-- Whether a slot holds a scalar. -/
def Stores (state : State) (name : ValueName) (scalar : Scalar) : Prop :=
  state.store.read ⟨run.home name, 0⟩ scalar.prim.size.toNat = scalar.datum.encode

/-- Whether what a name is bound to holds the value of the variable. -/
def Carries (state : State) : Binding → Option Scalar → Prop
  | .value value, content => ∃ scalar, content = some scalar ∧ run.Shows state value scalar
  | .param value, content => ∃ scalar, content = some scalar ∧ run.Shows state value scalar
  | .slot (.reg name _) ty _, content => ∀ scalar, content = some scalar →
    ty = .prim scalar.prim ∧ run.Stores state name scalar
  | .slot .., _ => False

/-- The variables of a site hold the values of the evaluation. -/
structure Holds (site : Site) (locals : Locals) (state : State) : Prop where
  homes : ∀ slot ∈ run.function.slots,
    state.regs slot.name = some (.address ⟨run.home slot.name, 0⟩)
  cells : Scopes.Agree (run.Carries state) site.env.scopes locals
  typed : Scopes.Agree HasPrim site.prims locals

/-- What was there before is kept: the registers that are set in `body`, and the slots that no name
is bound to. -/
structure Kept (body : Function) (scopes : Scopes Binding) (before after : State) : Prop where
  regs : ∀ name, body.Sets name → after.regs name = before.regs name
  memory : ∀ slot ∈ body.slots, slot.name ∉ slotNames scopes → ∀ offset,
    after.store.bytes ⟨run.home slot.name, offset⟩ = before.store.bytes ⟨run.home slot.name, offset⟩

/-- Control comes from a point to a place, in a state where what was there before is kept. -/
def Comes (body : Function) (scopes : Scopes Binding) (before : State) (point : Point)
    (place : Option BlockId → State → Point) (good : State → Prop) : Prop :=
  ∃ previous after, run.Reaches point (place previous after) ∧ run.Kept body scopes before after ∧
    good after

/-- What a run from `point` on has to do when the evaluation ends in some way. A value is found at
the cursor of `later`; a jump leads to the edge of a loop. Afterwards the variables are as `done` or
`left` say. -/
def Ends (site : Site) (now : Builder) (point : Point) (before : State) (later : Builder)
    (value : Value) (prim : Prim) (done left : Locals → State → Prop) : Outcome → Locals → Prop
  | .value scalar, locals => scalar.prim = prim ∧ prim ≠ .never ∧ ∃ id, later.here? = some id ∧
    run.Comes now.body site.env.scopes before point (run.spot later id) fun after =>
      run.Shows after value scalar ∧ done locals after
  | .jump jump, locals => (jump = .leave → site.leaves = true) ∧
    ∀ target, site.env.target? jump = some target →
      run.Comes now.body site.env.scopes before point (run.start target) (left locals)
  | .result scalar, _ => scalar.prim = site.ret ∧ run.Finishes point scalar.returned

/-- The code between two states of the builder does what the evaluation says, from every state in
which `carried` holds. -/
def Simulates (site : Site) (now later : Builder) (carried : State → Prop) (value : Value)
    (prim : Prim) (evaluation : Evaluation) : Prop :=
  ∀ locals outcome locals', evaluation locals = some (outcome, locals') →
    ∀ id previous state, now.here? = some id → run.Holds site locals state → carried state →
      run.Ends site now (run.spot now id previous state) state later value prim (run.Holds site)
        (run.Holds site) outcome locals'

end Run

/-! ### What lowering knows -/

/-- Whether an operand is a scalar that is set in the function. -/
structure Known (body : Function) (value : Value) : Prop where
  scalar : ∃ prim, value.ty = .prim prim
  sets : ∀ name, value.regName? = some name → body.Sets name

/-- Whether a name of type `prim` may be bound so. -/
def Suits (body : Function) (prim : Prim) : Binding → Prop
  | .value value => Known body value
  | .param value => Known body value
  | .slot address ty _ => ty = .prim prim ∧ ∃ name, address = .reg name (.ptr ty true) ∧
    ⟨name, .ptr ty true, .alloca ty⟩ ∈ body.slots

/-- Whether all names are bound as their types ask, each to a slot of its own if to any. -/
structure Bound (body : Function) (site : Site) : Prop where
  entries : Scopes.Agree (Suits body) site.prims site.env.scopes
  distinct : (slotNames site.env.scopes).Nodup
  returns : site.env.returnType? = some (.prim site.ret)
  inner : ∀ jump id, site.env.target? jump = some id → id ≠ Function.entryId

theorem Known.mono {body body' : Function} {value : Value} (known : Known body value)
    (grown : body.Extends body') : Known body' value :=
  ⟨known.scalar, fun name named => grown.sets (known.sets name named)⟩

theorem Suits.mono {body body' : Function} {prim : Prim} {binding : Binding}
    (suits : Suits body prim binding) (grown : body.Extends body') : Suits body' prim binding := by
  cases binding with
  | value value => exact Known.mono suits grown
  | param value => exact Known.mono suits grown
  | slot address ty mutable =>
    obtain ⟨same, name, named, member⟩ := suits
    exact ⟨same, name, named, grown.slots _ member⟩

theorem Bound.mono {body body' : Function} {site : Site} (bound : Bound body site)
    (grown : body.Extends body') : Bound body' site :=
  ⟨bound.entries.mono fun _ _ suits => suits.mono grown, bound.distinct, bound.returns, bound.inner⟩

/-- The slots that names are bound to are slots of the function. -/
theorem Bound.reserves {body : Function} {site : Site} {slot : ValueName} (bound : Bound body site)
    (member : slot ∈ slotNames site.env.scopes) : ∃ inst ∈ body.slots, inst.name = slot := by
  obtain ⟨entry, inside, named⟩ := List.mem_filterMap.1 member
  obtain ⟨prim, suits⟩ := bound.entries.mem_right inside
  obtain ⟨key, binding⟩ := entry
  cases binding with
  | value value => cases named
  | param value => cases named
  | slot address ty mutable =>
    obtain ⟨_, found, rfl, reserved⟩ := suits
    cases named
    exact ⟨_, reserved, rfl⟩

/-- A slot that is not set yet is not that of a name. -/
theorem Bound.unbound {body : Function} {site : Site} {slot : ValueName} (bound : Bound body site)
    (fresh : ¬ body.Sets slot) : slot ∉ slotNames site.env.scopes :=
  fun member => fresh (Or.inr (bound.reserves member))

/-! ### What is kept -/

namespace Run

variable {run : Run} {body body' : Function} {scopes scopes' : Scopes Binding} {site : Site}
  {locals : Locals} {before middle after : State} {value : Value} {scalar : Scalar}

theorem Kept.refl (run : Run) (body : Function) (scopes : Scopes Binding) (state : State) :
    run.Kept body scopes state state :=
  ⟨fun _ _ => rfl, fun _ _ _ _ => rfl⟩

theorem Kept.trans (first : run.Kept body scopes before middle)
    (second : run.Kept body scopes middle after) : run.Kept body scopes before after :=
  ⟨fun name sets => (second.regs name sets).trans (first.regs name sets),
    fun slot member unbound offset =>
      (second.memory slot member unbound offset).trans (first.memory slot member unbound offset)⟩

/-- What is kept from a later state of the builder on is kept from an earlier one on. -/
theorem Kept.rebase (kept : run.Kept body' scopes' before after) (grown : body.Extends body')
    (covered : ∀ slot ∈ body.slots, slot.name ∈ slotNames scopes' → slot.name ∈ slotNames scopes) :
    run.Kept body scopes before after :=
  ⟨fun name sets => kept.regs name (grown.sets sets), fun slot member unbound offset =>
    kept.memory slot (grown.slots slot member) (fun bound => unbound (covered slot member bound))
      offset⟩

theorem operand?_of_regs {setting : Setting}
    (same : ∀ name, value.regName? = some name → after.regs name = before.regs name) :
    setting.operand? after.regs value = setting.operand? before.regs value := by
  cases value with
  | reg name ty => exact same name rfl
  | _ => rfl

theorem Shows.of_regs (shows : run.Shows before value scalar)
    (same : ∀ name, value.regName? = some name → after.regs name = before.regs name) :
    run.Shows after value scalar :=
  ⟨shows.ty, (operand?_of_regs same).trans shows.datum⟩

/-- An operand that was set before is kept. -/
theorem Shows.kept (shows : run.Shows before value scalar) (known : Known body value)
    (kept : run.Kept body scopes before after) : run.Shows after value scalar :=
  shows.of_regs fun name named => kept.regs name (known.sets name named)

theorem Stores.of_bytes {name : ValueName} (stores : run.Stores before name scalar)
    (same : ∀ offset, after.store.bytes ⟨run.home name, offset⟩ =
      before.store.bytes ⟨run.home name, offset⟩) : run.Stores after name scalar := by
  unfold Stores at stores ⊢
  rw [← stores]
  exact List.map_congr_left fun index _ => same _

/-- A binding keeps its value while nothing is done to its register or its slot. -/
theorem Carries.of_same {binding : Binding} {content : Option Scalar} {prim : Prim}
    (carries : run.Carries before binding content) (suits : Suits body prim binding)
    (regs : ∀ name, body.Sets name → after.regs name = before.regs name)
    (bytes : ∀ name, binding.slotName? = some name → ∀ offset,
      after.store.bytes ⟨run.home name, offset⟩ = before.store.bytes ⟨run.home name, offset⟩) :
    run.Carries after binding content := by
  have direct : ∀ value, Known body value →
      (∃ scalar, content = some scalar ∧ run.Shows before value scalar) →
        ∃ scalar, content = some scalar ∧ run.Shows after value scalar := by
    intro value known shown
    obtain ⟨scalar, same, shows⟩ := shown
    exact ⟨scalar, same, shows.of_regs fun name named => regs name (known.sets name named)⟩
  cases binding with
  | value value => exact direct value suits carries
  | param value => exact direct value suits carries
  | slot address ty mutable =>
    obtain ⟨_, slot, rfl, _⟩ := suits
    intro scalar same
    obtain ⟨typed, stores⟩ := carries scalar same
    exact ⟨typed, stores.of_bytes (bytes slot rfl)⟩

/-- Variables keep their values while nothing is done to what they are bound to. -/
theorem Holds.of_same (holds : run.Holds site locals before) (bound : Bound body site)
    (slots : ∀ slot ∈ run.function.slots, after.regs slot.name = before.regs slot.name)
    (regs : ∀ name, body.Sets name → after.regs name = before.regs name)
    (bytes : ∀ name ∈ slotNames site.env.scopes, ∀ offset,
      after.store.bytes ⟨run.home name, offset⟩ = before.store.bytes ⟨run.home name, offset⟩) :
    run.Holds site locals after := by
  refine ⟨fun slot member => (slots slot member).trans (holds.homes slot member),
    holds.cells.weaken fun entry member content carries => ?_, holds.typed⟩
  obtain ⟨prim, suits⟩ := bound.entries.mem_right member
  exact carries.of_same suits regs fun name named =>
    bytes name (List.mem_filterMap.2 ⟨entry, member, named⟩)

end Run

end TreeLowering.Lowering
