/-
This file lets the builder be used in any way: in any order, for any functions, and on after a step
has failed. Whatever is done with it comes down to a few edits of the module, each with what it does
to the counters and the names in use, and to entering functions. A law of every run is therefore
proved edit by edit.
-/

import Mathlib.Logic.Relation
import TreeLowering.Proofs.Regime.Returned

namespace TreeLowering.Lowering

open TreeLowering.Ir Relation

/-! ### Commands -/

/-- What can be asked of the builder. -/
inductive Builder.Command where
  | positionAt (func : FuncId) (block : BlockId)
  | newBlock (hint : String)
  | freshName
  | uniqueName (base : String)
  | pin (value : Value)
  | emit (op : Operation) (ty : Ty)
  | alloca (ty : Ty) (variableName : Option String)
  | load (address : Value) (ty : Ty)
  | store (address value : Value)
  | binary (op : BinOp) (left right : Value)
  | unary (op : UnOp) (operand : Value)
  | cmp (pred : CmpPred) (left right : Value)
  | call (callee : Value) (args : List Value) (ret : Ty)
  | gep (baseTy : Ty) (base : Value) (indices : List Value) (elemTy : Ty)
  | cast (kind : CastKind) (value : Value) (ty : Ty)
  | phi (ty : Ty) (incoming : List (Value × BlockId))
  | jump (target : BlockId)
  | branch (test : Value) (thenBlock elseBlock : BlockId)
  | ret (value : Option Value)

/-- The step that a command stands for; its answer does not matter here. -/
def Builder.Command.step : Builder.Command → BuildM Unit
  | positionAt func block => Build.positionAt func block
  | newBlock hint => discard (Build.newBlock hint)
  | freshName => discard Build.freshName
  | uniqueName base => discard (Build.uniqueName base)
  | pin value => Build.pin value
  | emit op ty => discard (Build.emit op ty)
  | alloca ty variableName => discard (Build.alloca ty variableName)
  | load address ty => discard (Build.load address ty)
  | store address value => Build.store address value
  | binary op left right => discard (Build.binary op left right)
  | unary op operand => discard (Build.unary op operand)
  | cmp pred left right => discard (Build.cmp pred left right)
  | call callee args ty => discard (Build.call callee args ty)
  | gep baseTy base indices elemTy => discard (Build.gep baseTy base indices elemTy)
  | cast kind value ty => discard (Build.cast kind value ty)
  | phi ty incoming => discard (Build.phi ty incoming)
  | jump target => Build.jump target
  | branch test thenBlock elseBlock => Build.branch test thenBlock elseBlock
  | ret value => Build.ret value

namespace Builder

/-- The builder after a command, also when the command fails. -/
def obey (builder : Builder) (command : Command) : Builder :=
  match command.step builder with
  | .ok _ after => after
  | .error _ after => after

/-- The builder after several commands. -/
def run (builder : Builder) (commands : List Command) : Builder := commands.foldl obey builder

/-- The builder of a module that is there already. -/
def startOn (target : Module) (options : Options) : Builder := { start options with target }

/-! ### Edits -/

/-- What may change in one go while the builder stays with its function. -/
inductive Edit (builder : Builder) : Builder → Prop
  | entry (func : FuncId) :
      Edit builder { builder with
        target := builder.target.modifyFunction func Function.withEntry }
  | block (func : FuncId) (hint : String) :
      Edit builder { builder with
        target := builder.target.modifyFunction func fun function => function.addBlock hint }
  | declare {name : String} {params : List Param} {ret : Ty} {func : FuncId} {target : Module}
      (declared : builder.target.declareFunction name params ret = .ok func target) :
      Edit builder { builder with target }
  /-- A temporary was handed out for nothing. -/
  | spend : Edit builder { builder with nextTemp := builder.nextTemp + 1 }
  | name {variableName : Option String} {start : Builder} {name : ValueName}
      (named : Build.SlotNamed variableName builder start name) : Edit builder start
  | pin (pinned : List ValueName) : Edit builder { builder with pinned }
  | append {cursor : Cursor} {op : Operation} {ty : Ty} (here : builder.cursor = some cursor)
      (plain : op.isAlloca = false) :
      Edit builder { builder with
        nextTemp := builder.nextTemp + 1
        target := builder.target.modifyBlock cursor.func cursor.block fun found =>
          found.append ⟨.temp builder.nextTemp, ty, op⟩ }
  | slot {func : FuncId} {variableName : Option String} {start : Builder} {name : ValueName}
      {ty : Ty} (current : builder.current = some func)
      (named : Build.SlotNamed variableName builder start name) :
      Edit builder { start with
        slotCount := start.slotCount + 1
        target := (start.target.modifyFunction func Function.withEntry).modifyBlock func
          Function.entryId fun found =>
            found.insert start.slotCount ⟨name, .ptr ty true, .alloca ty⟩ }
  /-- A load was dropped. -/
  | drop {value : Value} {cursor : Cursor} {position : Nat} {origin : Value}
      (source : builder.copySource? value = .ok (some (cursor, position, origin))) :
      Edit builder { builder with
        target := builder.target.modifyBlock cursor.func cursor.block fun found =>
          found.remove position }
  | close {cursor : Cursor} (terminator : Terminator) (here : builder.cursor = some cursor) :
      Edit builder { builder with
        cursor := none
        target := builder.target.modifyBlock cursor.func cursor.block fun found =>
          found.terminate terminator }

/-- Several edits in a row. -/
abbrev Edits : Builder → Builder → Prop := ReflTransGen Edit

end Builder

/-! ### Steps -/

namespace Build

open Builder

variable {α β : Type} {builder : Builder}

/-- However the step ends, it has come there by edits. -/
def EditsOnly (action : BuildM α) : Prop :=
  ∀ builder, Ends action builder (fun _ after => builder.Edits after) fun _ after =>
    builder.Edits after

theorem EditsOnly.bind {action : BuildM α} {next : α → BuildM β} (first : EditsOnly action)
    (rest : ∀ result, EditsOnly (next result)) : EditsOnly (action >>= next) := by
  intro builder
  rw [ends_bind]
  refine (first builder).mono (fun result middle edits => ?_) fun _ _ => id
  exact (rest result middle).mono (fun _ _ => edits.trans) fun _ _ => edits.trans

theorem EditsOnly.pure (result : α) : EditsOnly (pure result : BuildM α) := fun _ => .refl

theorem EditsOnly.get : EditsOnly (get : BuildM Builder) := fun _ => .refl

theorem EditsOnly.discard {action : BuildM α} (edits : EditsOnly action) :
    EditsOnly (discard action) := fun builder => (edits builder).discard

theorem EditsOnly.modify {change : Builder → Builder}
    (edit : ∀ builder : Builder, builder.Edit (change builder)) : EditsOnly (modify change) :=
  fun builder => .single (edit builder)

theorem ends_ask (question : Module → Except Ir.Error α) (builder : Builder) :
    Ends (ask question) builder (fun answer after => question builder.target = .ok answer ∧
      after = builder) fun _ after => after = builder := by
  unfold Ends ask
  cases question builder.target with
  | ok answer => exact ⟨rfl, rfl⟩
  | error cause => exact rfl

theorem ends_measure (question : Builder → Except Trap α) (builder : Builder) :
    Ends (measure question) builder (fun answer after => question builder = .ok answer ∧
      after = builder) fun _ after => after = builder := by
  unfold Ends measure
  cases question builder with
  | ok answer => exact ⟨rfl, rfl⟩
  | error cause => exact rfl

theorem ends_insertionPoint (builder : Builder) :
    Ends insertionPoint builder (fun cursor after => builder.cursor = some cursor ∧
      after = builder) fun _ after => after = builder := by
  unfold insertionPoint
  rw [ends_bind, ends_get]
  cases builder.cursor with
  | none => exact rfl
  | some cursor => exact ⟨rfl, rfl⟩

theorem ends_currentFunction (builder : Builder) :
    Ends currentFunction builder (fun func after => builder.current = some func ∧
      after = builder) fun _ after => after = builder := by
  unfold currentFunction
  rw [ends_bind, ends_get]
  cases builder.current with
  | none => exact rfl
  | some func => exact ⟨rfl, rfl⟩

theorem ends_ensureEntry (func : FuncId) (builder : Builder) :
    Ends (ensureEntry func) builder (fun entry after => entry = Function.entryId ∧
      after = { builder with target := builder.target.modifyFunction func Function.withEntry })
      fun _ after => after = builder := by
  unfold ensureEntry
  rw [ends_bind]
  refine (ends_ask _ builder).mono ?_ fun _ _ => id
  rintro _ _ ⟨_, rfl⟩
  exact ⟨rfl, rfl⟩

theorem editsOnly_ask (question : Module → Except Ir.Error α) : EditsOnly (ask question) :=
  fun builder => (ends_ask question builder).mono (fun _ _ same => same.2 ▸ .refl)
    fun _ _ same => same ▸ .refl

theorem editsOnly_measure (question : Builder → Except Trap α) : EditsOnly (measure question) :=
  fun builder => (ends_measure question builder).mono (fun _ _ same => same.2 ▸ .refl)
    fun _ _ same => same ▸ .refl

theorem editsOnly_declareFunction (name : String) (params : List Param) (ret : Ty) :
    EditsOnly (declare fun target => target.declareFunction name params ret) := by
  intro builder
  unfold Ends declare
  dsimp only
  cases declared : builder.target.declareFunction name params ret with
  | ok func target => exact ReflTransGen.single (.declare declared)
  | error cause target =>
    obtain ⟨rfl, -⟩ := Module.declareFunction_error declared
    exact ReflTransGen.refl

theorem editsOnly_newBlock (hint : String) : EditsOnly (newBlock hint) := by
  have current : EditsOnly currentFunction := fun builder =>
    (ends_currentFunction builder).mono (fun _ _ same => same.2 ▸ .refl) fun _ _ same => same ▸ .refl
  refine current.bind fun func => (editsOnly_ask _).bind fun _ => (editsOnly_ask _).bind fun _ => ?_
  exact EditsOnly.bind (.modify fun _ => .block func hint) fun _ => .pure _

theorem ends_slotName (variableName : Option String) (builder : Builder) :
    Ends (slotName variableName) builder
      (fun name after => SlotNamed variableName builder after name) fun _ _ => False := by
  have ended : ∃ name after, slotName variableName builder = .ok name after := by
    cases variableName <;> exact ⟨_, _, rfl⟩
  obtain ⟨name, after, ended⟩ := ended
  unfold Ends
  rw [ended]
  exact returns_slotName variableName name after ended

theorem editsOnly_freshName : EditsOnly freshName := fun builder =>
  (ends_slotName none builder).mono (fun _ _ named => .single (.name named)) fun _ _ => False.elim

theorem editsOnly_uniqueName (base : String) : EditsOnly (uniqueName base) := by
  intro builder
  have named : SlotNamed (some base) builder (builder.useName base (builder.freeNumber base))
      (.named (candidate base (builder.freeNumber base))) := by
    refine ⟨rfl, rfl, rfl, rfl, rfl, Nat.le_refl _, fun _ => List.mem_cons_of_mem _,
      .inr ⟨_, builder.freeNumber_not_mem base, rfl⟩, nofun, fun text same => ?_, nofun⟩
    cases same
    exact List.mem_cons_self
  exact ReflTransGen.single (.name named)

theorem editsOnly_pin (value : Value) : EditsOnly (pin value) := by
  unfold pin
  cases value.regName? with
  | none => exact .pure ()
  | some name => exact .modify fun _ => .pin _

/-- A failed emission has used a temporary up. -/
theorem editsOnly_emitTemp {op : Operation} (plain : op.isAlloca = false) (ty : Ty) :
    EditsOnly (emitTemp op ty) := by
  intro builder
  unfold emitTemp freshName append
  change Ends (insertionPoint >>= fun cursor => appendAt cursor.func cursor.block
    ⟨.temp builder.nextTemp, ty, op⟩) { builder with nextTemp := builder.nextTemp + 1 } _ _
  rw [ends_bind]
  refine (ends_insertionPoint _).mono ?_ fun _ _ same => same ▸ .single .spend
  rintro cursor _ ⟨here, rfl⟩
  unfold appendAt
  rw [ends_bind]
  refine (ends_ask _ _).mono ?_ fun _ _ same => same ▸ .single .spend
  rintro _ _ ⟨_, rfl⟩
  exact ReflTransGen.single (.append here plain)

theorem editsOnly_alloca (ty : Ty) (variableName : Option String) :
    EditsOnly (alloca ty variableName) := by
  intro builder
  unfold alloca
  rw [ends_bind]
  refine (ends_currentFunction builder).mono ?_ fun _ _ same => same ▸ .refl
  rintro func _ ⟨current, rfl⟩
  rw [ends_bind]
  refine (ends_slotName variableName _).mono (fun name start named => ?_) fun _ _ => False.elim
  rw [ends_bind]
  refine (ends_ensureEntry func start).mono ?_ fun _ _ same => same ▸ .single (.name named)
  rintro _ _ ⟨rfl, rfl⟩
  unfold insertAt
  rw [ends_bind, ends_get, ends_bind, ends_bind]
  refine (ends_ask _ _).mono ?_ fun _ _ same => same ▸ (ReflTransGen.single (.name named)).tail
    (.entry func)
  rintro _ _ ⟨_, rfl⟩
  exact ReflTransGen.single (.slot current named)

theorem editsOnly_terminate (terminator : Terminator) : EditsOnly (terminate terminator) := by
  intro builder
  unfold terminate terminateAt
  rw [ends_bind]
  refine (ends_insertionPoint builder).mono ?_ fun _ _ same => same ▸ .refl
  rintro cursor _ ⟨here, rfl⟩
  rw [ends_bind, ends_bind]
  refine (ends_ask _ _).mono ?_ fun _ _ same => same ▸ .refl
  rintro _ _ ⟨_, rfl⟩
  exact ReflTransGen.single (.close terminator here)

theorem editsOnly_copyAggregate (destination origin : Value) (ty : Ty) :
    EditsOnly (copyAggregate destination origin ty) := by
  have routine : EditsOnly copyRoutine := EditsOnly.bind .get fun _ =>
    (editsOnly_declareFunction _ _ _).bind fun _ => editsOnly_ask _
  refine (editsOnly_measure _).bind fun _ => routine.bind fun _ => ?_
  refine (editsOnly_emitTemp rfl _).bind fun _ => (editsOnly_emitTemp rfl _).bind fun _ => ?_
  exact (editsOnly_emitTemp rfl _).bind fun _ => .pure _

theorem editsOnly_store (address value : Value) : EditsOnly (store address value) := by
  intro builder
  unfold store
  rw [ends_bind]
  refine (ends_measure _ builder).mono ?_ fun _ _ same => same ▸ .refl
  rintro answer _ ⟨source, rfl⟩
  cases answer with
  | none => exact ((editsOnly_emitTemp rfl .unit).bind fun _ => .pure ()) _
  | some found =>
    obtain ⟨cursor, position, origin⟩ := found
    unfold removeAt
    dsimp only
    rw [ends_bind, ends_bind]
    refine (ends_ask _ _).mono ?_ fun _ _ same => same ▸ .refl
    rintro _ _ ⟨_, rfl⟩
    have dropped := ReflTransGen.single (Edit.drop source)
    exact (editsOnly_copyAggregate address origin value.ty _).mono (fun _ _ => dropped.trans)
      fun _ _ => dropped.trans

theorem editsOnly_emit (op : Operation) (ty : Ty) : EditsOnly (emit op ty) := by
  cases op with
  | alloca allocated => exact editsOnly_alloca allocated none
  | store address value => exact (editsOnly_store address value).bind fun _ => .pure _
  | _ => exact editsOnly_emitTemp rfl ty

end Build

/-! ### Runs -/

namespace Builder

/-- The block of a function that a builder goes to, by way of its entry block. -/
def move (builder : Builder) (func : FuncId) (block : BlockId) : Builder :=
  { Builder.enter { builder with
      target := builder.target.modifyFunction func Function.withEntry Function.name_withEntry } func with
    cursor := some ⟨func, block⟩ }

theorem ends_positionAt (builder : Builder) (func : FuncId) (block : BlockId) :
    Ends (Build.positionAt func block) builder
      (fun _ after =>
        (builder.target.modifyFunction func Function.withEntry).checkOpen func block = .ok () ∧
        after = builder.move func block)
      fun _ after => after = builder ∨ after =
        { builder with target := builder.target.modifyFunction func Function.withEntry } := by
  unfold Build.positionAt
  rw [ends_bind]
  refine (Build.ends_ensureEntry func builder).mono ?_ fun _ _ => .inl
  rintro _ _ ⟨rfl, rfl⟩
  rw [ends_bind]
  refine (Build.ends_ask _ _).mono ?_ fun _ _ => .inr
  rintro _ _ ⟨opened, rfl⟩
  exact ⟨opened, rfl⟩

/-- What a step comes to on both of its ways is true of the builder that obeys. -/
theorem obey_ends {builder : Builder} {command : Command} {post : Builder → Prop}
    (ended : Ends command.step builder (fun _ after => post after) fun _ after => post after) :
    post (builder.obey command) := by
  unfold Ends at ended
  unfold obey
  cases stepped : command.step builder with
  | ok answer after =>
    rw [stepped] at ended
    exact ended
  | error cause after =>
    rw [stepped] at ended
    exact ended

theorem obey_positionAt (builder : Builder) (func : FuncId) (block : BlockId) :
    ((builder.target.modifyFunction func Function.withEntry).checkOpen func block = .ok () ∧
        builder.obey (.positionAt func block) = builder.move func block) ∨
      builder.obey (.positionAt func block) = builder ∨
      builder.obey (.positionAt func block) =
        { builder with target := builder.target.modifyFunction func Function.withEntry } := by
  have ended := builder.ends_positionAt func block
  exact @obey_ends builder (.positionAt func block) _
    (ended.mono (fun _ _ => Or.inl) fun _ _ => Or.inr)

/-- A command comes down to edits, but for the one that goes to another place. -/
theorem obey_cases (builder : Builder) (command : Command) :
    builder.Edits (builder.obey command) ∨
      ∃ func block, command = .positionAt func block ∧
        (builder.target.modifyFunction func Function.withEntry).checkOpen func block = .ok () ∧
        builder.obey command = builder.move func block := by
  have edited (edits : Build.EditsOnly command.step) : builder.Edits (builder.obey command) :=
    obey_ends (edits builder)
  cases command with
  | positionAt func block =>
    rcases builder.obey_positionAt func block with moved | same | entered
    · exact .inr ⟨func, block, rfl, moved⟩
    · rw [same]
      exact .inl .refl
    · rw [entered]
      exact .inl (.single (.entry func))
  | newBlock hint => exact .inl (edited (Build.editsOnly_newBlock hint).discard)
  | freshName => exact .inl (edited Build.editsOnly_freshName.discard)
  | uniqueName base => exact .inl (edited (Build.editsOnly_uniqueName base).discard)
  | pin value => exact .inl (edited (Build.editsOnly_pin value))
  | emit op ty => exact .inl (edited (Build.editsOnly_emit op ty).discard)
  | alloca ty variableName => exact .inl (edited (Build.editsOnly_alloca ty variableName).discard)
  | store address value => exact .inl (edited (Build.editsOnly_store address value))
  | jump target => exact .inl (edited (Build.editsOnly_terminate _))
  | branch test thenBlock elseBlock => exact .inl (edited (Build.editsOnly_terminate _))
  | ret value => exact .inl (edited (Build.editsOnly_terminate _))
  | _ => exact .inl (edited (Build.editsOnly_emitTemp rfl _).discard)

/-- What survives every edit survives a command, if it survives the move that the command asks for. -/
theorem obey_keeps {invariant : Builder → Prop} {builder : Builder} {command : Command}
    (holds : invariant builder)
    (edits : ∀ {before after : Builder}, before.Edit after → invariant before → invariant after)
    (moves : ∀ func block, command = .positionAt func block →
      (builder.target.modifyFunction func Function.withEntry).checkOpen func block = .ok () →
      invariant (builder.move func block)) : invariant (builder.obey command) := by
  rcases builder.obey_cases command with edited | ⟨func, block, asked, opened, moved⟩
  · generalize builder.obey command = after at edited
    induction edited with
    | refl => exact holds
    | tail _ edit inductionHypothesis => exact edits edit inductionHypothesis
  · rw [moved]
    exact moves func block asked opened

end Builder

end TreeLowering.Lowering
