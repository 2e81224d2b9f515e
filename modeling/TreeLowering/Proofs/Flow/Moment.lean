/-
This file describes a function while it is being built, and how it changes from one moment to a
later one. A moment is valid when its function is certified and its names are accounted for.
Between two moments of one run instructions and blocks are only added, with one exception: a load
that nothing reads may be dropped. Such a load is idle, and what keeps the exception harmless is
that nobody touches a register that was idle before they started.
-/

import TreeLowering.Proofs.Flow.Declare
import TreeLowering.Proofs.Ssa.Edit

namespace TreeLowering.Ir

/-- The blocks are numbered by position, and each label but the first carries its number. -/
structure Function.Labelled (function : Function) : Prop where
  entry : ∃ block, function.block? entryId = some block ∧ block.label = "entry"
  ids : ∀ id block, function.block? id = some block → block.id = id
  labels : ∀ id block, function.block? id = some block → id ≠ entryId →
    ∃ hint, block.label = hint ++ "." ++ toString id.index

/-- The entry block begins with as many stack slots as were counted. -/
def Function.BeginsWithSlots (function : Function) (count : Nat) : Prop :=
  ∃ slots rest, function.code entryId = slots ++ rest ∧ slots.length = count ∧
    ∀ inst ∈ slots, inst.op.isAlloca = true

/-- Functions other than `func` are kept as they are, and new ones have no body. -/
structure Module.Beside (func : FuncId) (first second : Module) : Prop where
  kept : ∀ other, other ≠ func → ∀ function, first.function? other = some function →
    second.function? other = some function
  added : ∀ other, other ≠ func → first.function? other = none → ∀ function,
    second.function? other = some function → function.isDeclaration = true

namespace Module.Beside

theorem refl (func : FuncId) (target : Module) : Beside func target target :=
  ⟨fun _ _ _ => id, fun _ _ missing _ found => by rw [missing] at found; cases found⟩

theorem trans {func : FuncId} {first second third : Module} (earlier : Beside func first second)
    (later : Beside func second third) : Beside func first third := by
  refine ⟨fun other differs function found =>
    later.kept other differs function (earlier.kept other differs function found),
    fun other differs missing function found => ?_⟩
  cases middle : second.function? other with
  | none => exact later.added other differs middle function found
  | some function' =>
    rw [later.kept other differs function' middle] at found
    cases found
    exact earlier.added other differs missing function middle

end Module.Beside

end TreeLowering.Ir

namespace TreeLowering.Lowering

open TreeLowering.Ir TreeLowering.Tree

/-- A builder, and the registers that are set at the beginning of each block of the function being
built. -/
structure Moment where
  builder : Builder
  avail : BlockId → Register → Prop

namespace Moment

/-- The function being built. -/
def body (now : Moment) : Function :=
  (now.builder.current.bind now.builder.target.function?).getD default

/-- The block the cursor is in. -/
def here? (now : Moment) : Option BlockId := now.builder.cursor.map Cursor.block

/-- Whether there is a block to emit into. -/
def Live (now : Moment) : Prop := now.builder.cursor.isSome = true

/-- The registers set at the cursor. -/
def Known (now : Moment) (reg : Register) : Prop :=
  ∃ id, now.here? = some id ∧ now.body.KnownAfter now.avail id reg

/-- Whether an operand may be read at the cursor. -/
def Reads (now : Moment) (value : Value) : Prop := value.Readable now.body.params now.Known

def Has (now : Moment) (id : BlockId) : Prop := (now.body.block? id).isSome = true

def Open (now : Moment) (id : BlockId) : Prop := now.Has id ∧ now.body.exit? id = none

/-- Whether a block is open although the cursor is elsewhere. -/
def Waiting (now : Moment) (id : BlockId) : Prop := now.Open id ∧ now.here? ≠ some id

/-- Whether the register holds an aggregate that nothing reads and no name is bound to. -/
structure Idle (now : Moment) (name : ValueName) : Prop where
  present : ∃ ty, ty.isAggregate = true ∧ now.body.Present (name, ty)
  unpinned : name ∉ now.builder.pinned
  unused : now.body.Unused name

/-- The function being built is sound so far, and new names can be told from those in use. -/
structure Valid (now : Moment) : Prop where
  current : ∃ func, now.builder.current = some func ∧
    now.builder.target.function? func = some now.body
  cursor : ∀ cursor, now.builder.cursor = some cursor →
    now.builder.current = some cursor.func ∧ now.Open cursor.block
  labelled : now.body.Labelled
  certified : Certified now.body now.avail
  slots : now.body.BeginsWithSlots now.builder.slotCount
  temps : ∀ number, now.body.Names (.temp number) → number < now.builder.nextTemp
  names : ∀ text, now.body.Names (.named text) → text ∈ now.builder.usedNames

/-! ### Change -/

/-- What every step keeps of the function being built, and of the others. -/
structure Grows (base now : Moment) : Prop where
  current : now.builder.current = base.builder.current
  name : now.body.name = base.body.name
  within : Within base.body now.body
  blocks : ∀ id, base.Has id → now.Has id
  avail : ∀ id, base.Has id → ∀ reg, now.avail id reg ↔ base.avail id reg
  phiFree : ∀ id, base.Has id → base.body.PhiFree id → now.body.PhiFree id
  pinned : ∀ name ∈ base.builder.pinned, name ∈ now.builder.pinned
  idle : ∀ name, base.Idle name → now.Idle name
  beside : ∀ func, base.builder.current = some func →
    Module.Beside func base.builder.target now.builder.target

/-- What the lowering of a construct keeps: the same blocks wait as before, and what was known at
the cursor still is. -/
structure Since (base now : Moment) : Prop extends Grows base now where
  waiting : ∀ id, now.Waiting id ↔ base.Waiting id
  here : now.Live → ∀ reg, base.Known reg → now.Known reg

variable {base middle now : Moment}

namespace Grows

theorem refl (now : Moment) : Grows now now :=
  ⟨rfl, rfl, ⟨rfl, fun _ _ => id⟩, fun _ => id, fun _ _ _ => Iff.rfl, fun _ _ => id, fun _ => id,
    fun _ => id, fun func _ => .refl func _⟩

theorem trans (first : Grows base middle) (second : Grows middle now) : Grows base now where
  current := second.current.trans first.current
  name := second.name.trans first.name
  within := ⟨second.within.params.trans first.within.params, fun id inst member =>
    second.within.code id inst (first.within.code id inst member)⟩
  blocks id found := second.blocks id (first.blocks id found)
  avail id found reg := (second.avail id (first.blocks id found) reg).trans (first.avail id found reg)
  phiFree id found free := second.phiFree id (first.blocks id found) (first.phiFree id found free)
  pinned name member := second.pinned name (first.pinned name member)
  idle name idle := second.idle name (first.idle name idle)
  beside func current := (first.beside func current).trans
    (second.beside func (first.current.trans current))

theorem present {reg : Register} (grows : Grows base now) (present : base.body.Present reg) :
    now.body.Present reg := grows.within.present present

theorem names {name : ValueName} (grows : Grows base now) (names : base.body.Names name) :
    now.body.Names name := by
  obtain ⟨ty, present⟩ := names
  exact ⟨ty, grows.present present⟩

theorem knownAfter (grows : Grows base now) {id : BlockId} (found : base.Has id) {reg : Register}
    (known : base.body.KnownAfter base.avail id reg) : now.body.KnownAfter now.avail id reg := by
  rcases grows.within.knownAfter known with (available | slot) | defined
  · exact Or.inl (Or.inl ((grows.avail id found reg).2 available))
  · exact Or.inl (Or.inr slot)
  · exact Or.inr defined

end Grows

namespace Since

theorem refl (now : Moment) : Since now now :=
  ⟨.refl now, fun _ => Iff.rfl, fun _ _ => id⟩

/-- Two constructs in a row; the second one is lowered only where control gets to. -/
theorem trans (first : Since base middle) (live : middle.Live) (second : Since middle now) :
    Since base now :=
  ⟨first.toGrows.trans second.toGrows, fun id => (second.waiting id).trans (first.waiting id),
    fun still reg known => second.here still reg (first.here live reg known)⟩

end Since

theorem Reads.mono {value : Value} (reads : base.Reads value)
    (params : now.body.params = base.body.params) (known : ∀ reg, base.Known reg → now.Known reg) :
    now.Reads value := by
  rw [Reads, params]
  exact Value.Readable.mono reads known

theorem Valid.present_of_known (valid : now.Valid) {reg : Register} (known : now.Known reg) :
    now.body.Present reg := by
  obtain ⟨id, _, known⟩ := known
  exact valid.certified.present_of_known known

theorem live_iff : now.Live ↔ ∃ id, now.here? = some id := by
  rw [Live, here?]
  cases now.builder.cursor <;> simp

theorem known_iff {id : BlockId} (here : now.here? = some id) {reg : Register} :
    now.Known reg ↔ now.body.KnownAfter now.avail id reg := by
  rw [Known, here]
  simp

/-! ### Values -/

/-- Whether an operand may be read at the cursor by those who started at `base`. -/
structure Usable (base now : Moment) (value : Value) : Prop where
  reads : now.Reads value
  own : ∀ name, value.regName? = some name → ¬ base.Idle name

/-- What an expression that was lowered from `base` on yields. A register that is new to `base` and
idle may be given away; others stay. -/
structure Produced (base now : Moment) (value : Value) : Prop where
  reads : now.Reads value
  spare : ∀ name ty, value = .reg name ty → ty.isAggregate = true →
    name ∈ now.builder.pinned ∨ now.Idle name ∧ ¬ base.body.Names name

/-- What a name may be bound to: an operand that will stay as it is. -/
structure Settled (now : Moment) (value : Value) : Prop where
  reads : now.Reads value
  pinned : ∀ name ty, value = .reg name ty → ty.isAggregate = true → name ∈ now.builder.pinned

/-- What can be used as an address. -/
structure Address (now : Moment) (value : Value) : Prop where
  reads : now.Reads value
  scalar : value.ty.isAggregate = false

theorem Idle.names {name : ValueName} (idle : now.Idle name) : now.body.Names name := by
  obtain ⟨ty, _, present⟩ := idle.present
  exact ⟨ty, present⟩

/-- A register is not idle for those who may give it away, nor for anyone when it is pinned or holds
no aggregate. -/
theorem not_idle (valid : now.Valid) (grows : Grows base now) {name : ValueName} {ty : Ty}
    (present : now.body.Present (name, ty))
    (spare : ty.isAggregate = true →
      name ∈ now.builder.pinned ∨ now.Idle name ∧ ¬ base.body.Names name) : ¬ base.Idle name := by
  intro idle
  obtain ⟨ty', aggregate, present'⟩ := idle.present
  obtain rfl := valid.certified.ty_unique present (grows.present present')
  rcases spare aggregate with pinned | ⟨_, new⟩
  · exact (grows.idle name idle).unpinned pinned
  · exact new idle.names

/-- An operand that is no aggregate may always be used. -/
theorem Usable.of_scalar {value : Value} (valid : now.Valid) (grows : Grows base now)
    (reads : now.Reads value) (scalar : value.ty.isAggregate = false) : Usable base now value := by
  refine ⟨reads, fun name named => ?_⟩
  cases value <;> simp only [Value.regName?, Option.some.injEq, reduceCtorEq] at named
  case reg name' ty =>
  subst named
  refine not_idle valid grows (valid.present_of_known reads) fun aggregate => ?_
  rw [Value.ty, aggregate] at scalar
  cases scalar

theorem Usable.constant (constant : Constant) (ty : Ty) : Usable base now (.const constant ty) :=
  ⟨trivial, fun _ named => by cases named⟩

theorem Usable.global (name : String) (ty : Ty) : Usable base now (.global name ty) :=
  ⟨trivial, fun _ named => by cases named⟩

theorem Address.usable {value : Value} (address : now.Address value) (valid : now.Valid)
    (grows : Grows base now) : Usable base now value :=
  .of_scalar valid grows address.reads address.scalar

theorem Produced.usable {value : Value} (produced : Produced base now value) (valid : now.Valid)
    (grows : Grows base now) : Usable base now value := by
  refine ⟨produced.reads, fun name named => ?_⟩
  cases value <;> simp only [Value.regName?, Option.some.injEq, reduceCtorEq] at named
  case reg name' ty =>
  subst named
  exact not_idle valid grows (valid.present_of_known produced.reads) (produced.spare name' ty rfl)

theorem Settled.produced {value : Value} (settled : now.Settled value) :
    Produced base now value :=
  ⟨settled.reads, fun name ty same aggregate => Or.inl (settled.pinned name ty same aggregate)⟩

/-- An operand without a register is nobody's. -/
theorem Settled.of_constant {value : Value} (none : value.regName? = none)
    (reads : now.Reads value) : now.Settled value :=
  ⟨reads, fun name ty same => by rw [same] at none; cases none⟩

/-- Later work does not touch a value. -/
theorem Produced.later {value : Value} (produced : Produced base middle value)
    (since : Since middle now) (live : now.Live) : Produced base now value := by
  refine ⟨produced.reads.mono since.within.params (since.here live), fun name ty same aggregate => ?_⟩
  rcases produced.spare name ty same aggregate with pinned | ⟨idle, new⟩
  · exact Or.inl (since.pinned name pinned)
  · exact Or.inr ⟨since.idle name idle, new⟩

/-- A value that is new to a later moment is new to an earlier one. -/
theorem Produced.rebase {value : Value} (produced : Produced middle now value)
    (grows : Grows base middle) : Produced base now value := by
  refine ⟨produced.reads, fun name ty same aggregate => ?_⟩
  rcases produced.spare name ty same aggregate with pinned | ⟨idle, new⟩
  · exact Or.inl pinned
  · exact Or.inr ⟨idle, fun names => new (grows.names names)⟩

theorem Settled.mono {value : Value} (settled : base.Settled value) (grows : Grows base now)
    (known : ∀ reg, base.Known reg → now.Known reg) : now.Settled value :=
  ⟨settled.reads.mono grows.within.params known, fun name ty same aggregate =>
    grows.pinned name (settled.pinned name ty same aggregate)⟩

theorem Address.mono {value : Value} (address : base.Address value) (grows : Grows base now)
    (known : ∀ reg, base.Known reg → now.Known reg) : now.Address value :=
  ⟨address.reads.mono grows.within.params known, address.scalar⟩

/-! ### The environment -/

/-- Whether control may jump to a block from where the cursor is. -/
structure Target (now : Moment) (id : BlockId) : Prop where
  inner : id ≠ Function.entryId
  found : now.Has id
  phiFree : now.body.PhiFree id
  known : ∀ reg, now.avail id reg → now.Known reg

theorem Target.mono {id : BlockId} (target : base.Target id) (grows : Grows base now)
    (known : ∀ reg, base.Known reg → now.Known reg) : now.Target id :=
  ⟨target.inner, grows.blocks id target.found, grows.phiFree id target.found target.phiFree,
    fun reg available => known reg (target.known reg ((grows.avail id target.found reg).1 available))⟩

/-- Whether what a name is bound to can be used. -/
def BindingOk (now : Moment) : Binding → Prop
  | .value value => now.Settled value
  | .slot address _ _ => now.Address address
  | .param value => now.Settled value

theorem BindingOk.mono {binding : Binding} (usable : base.BindingOk binding)
    (grows : Grows base now) (known : ∀ reg, base.Known reg → now.Known reg) :
    now.BindingOk binding := by
  cases binding with
  | value value => exact Settled.mono usable grows known
  | slot address ty mutable => exact Address.mono usable grows known
  | param value => exact Settled.mono usable grows known

/-- Whether every name can be used, every loop can be left and repeated, and there is a function to
return from. -/
structure EnvOk (now : Moment) (env : Env) : Prop where
  bindings : ∀ scope ∈ env.scopes, ∀ entry ∈ scope, now.BindingOk entry.2
  frame : env.returnType?.isSome = true
  loops : ∀ frame, env.frames.head? = some frame → ∀ targets ∈ frame.loops,
    now.Target targets.breakTo ∧ now.Target targets.continueTo

theorem EnvOk.mono {env : Env} (usable : base.EnvOk env) (grows : Grows base now)
    (known : ∀ reg, base.Known reg → now.Known reg) : now.EnvOk env :=
  ⟨fun scope member entry inside => (usable.bindings scope member entry inside).mono grows known,
    usable.frame, fun frame first targets inside =>
      (usable.loops frame first targets inside).imp (·.mono grows known) (·.mono grows known)⟩

theorem EnvOk.resolve {env : Env} (usable : now.EnvOk env) {name : Name} {binding : Binding}
    (found : env.resolve? name = some binding) : now.BindingOk binding := by
  obtain ⟨scope, member, found⟩ := List.exists_of_findSome?_eq_some found
  obtain ⟨before, after, split, _⟩ := List.lookup_eq_some_iff.1 found
  exact usable.bindings scope member (name, binding) (by rw [split]; simp)

theorem EnvOk.bind {env : Env} (usable : now.EnvOk env) {name : Name} {binding : Binding}
    (bound : now.BindingOk binding) : now.EnvOk (env.bind name binding) := by
  obtain ⟨scopes, frames⟩ := env
  refine ⟨?_, ?_, ?_⟩
  · cases scopes with
    | nil => simpa [Env.bind] using bound
    | cons scope outer =>
      have old := usable.bindings
      simp only [Env.bind, List.mem_cons, forall_eq_or_imp] at old ⊢
      exact ⟨⟨bound, old.1⟩, old.2⟩
  · cases scopes <;> exact usable.frame
  · cases scopes <;> exact usable.loops

theorem EnvOk.enterScope {env : Env} (usable : now.EnvOk env) : now.EnvOk env.enterScope := by
  refine ⟨fun scope member entry inside => ?_, usable.frame, usable.loops⟩
  rcases List.mem_cons.1 member with rfl | member
  · cases inside
  · exact usable.bindings scope member entry inside

theorem EnvOk.pushLoop {env : Env} (usable : now.EnvOk env) {targets : LoopTargets}
    (leave : now.Target targets.breakTo) (again : now.Target targets.continueTo) :
    now.EnvOk (env.pushLoop targets) := by
  obtain ⟨scopes, frames⟩ := env
  cases frames with
  | nil => exact usable
  | cons frame outer =>
    refine ⟨usable.bindings, rfl, fun frame' first targets' inside => ?_⟩
    cases first
    rcases List.mem_cons.1 inside with rfl | inside
    · exact ⟨leave, again⟩
    · exact usable.loops frame rfl targets' inside

theorem EnvOk.target {env : Env} (usable : now.EnvOk env) {jump : LoopJump} {id : BlockId}
    (found : env.target? jump = some id) : now.Target id := by
  obtain ⟨scopes, frames⟩ := env
  cases frames with
  | nil => cases found
  | cons frame outer =>
    cases loops : frame.loops with
    | nil => simp [Env.target?, Env.innermostLoop?, loops] at found
    | cons targets rest =>
      have usable := usable.loops frame rfl targets (by rw [loops]; exact List.mem_cons_self)
      simp only [Env.target?, Env.innermostLoop?, List.head?_cons, Option.bind_eq_bind,
        Option.bind_some, loops, Option.map_some, Option.some.injEq] at found
      subst found
      cases jump
      · exact usable.1
      · exact usable.2

end Moment

end TreeLowering.Lowering
