/-
This file says what a step of the builder has done when it returns. Each lemma gives the state after
a step as a function of the state before it, so that a set of rules is shown to survive a step by
looking at that state only.
-/

import TreeLowering.Proofs.Flow.Copy
import TreeLowering.Proofs.Regime.Steady

namespace TreeLowering.Ir

/-- An open block exists. -/
theorem Module.checkOpen_ok {target : Module} {func : FuncId} {id : BlockId}
    (opened : target.checkOpen func id = .ok ()) :
    ∃ function block, target.function? func = some function ∧ function.block? id = some block ∧
      block.terminator = none := by
  unfold checkOpen getBlock getFunction at opened
  cases stored : target.function? func with
  | none =>
    rw [stored] at opened
    cases opened
  | some function =>
    rw [stored] at opened
    change (do
      let found ← function.getBlock id
      if found.isTerminated then throw (Error.blockTerminated found.label)) = _ at opened
    unfold Function.getBlock at opened
    cases found : function.block? id with
    | none =>
      rw [found] at opened
      cases opened
    | some block =>
      rw [found] at opened
      refine ⟨function, block, rfl, found, ?_⟩
      cases closed : block.terminator with
      | none => rfl
      | some terminator =>
        change (if block.isTerminated then throw (Error.blockTerminated block.label) else pure ()) = _
          at opened
        rw [if_pos (by rw [Block.isTerminated, closed]; rfl)] at opened
        cases opened

/-- A function that is declared has the type it was declared with. -/
theorem Module.declareFunction_signature {target second : Module} {name : String}
    {params : List Param} {ret : Ty} {func : FuncId}
    (declared : target.declareFunction name params ret = .ok func second) :
    ∃ function, second.function? func = some function ∧
      function.signature = .func (params.map Param.ty) ret := by
  rcases declareFunction_ok declared with ⟨_, rfl, rfl⟩ | ⟨rfl, _, existing, found, _, same⟩
  · exact ⟨_, (function?_addFunction _ _).trans (if_pos rfl), rfl⟩
  · exact ⟨existing, found, same⟩

theorem Module.declareFunction_ret {target second : Module} {name : String} {params : List Param}
    {ret : Ty} {func : FuncId}
    (declared : target.declareFunction name params ret = .ok func second) :
    ∃ function, second.function? func = some function ∧ function.ret = ret := by
  obtain ⟨function, stored, same⟩ := declareFunction_signature declared
  exact ⟨function, stored, (Ty.func.inj same).2⟩

/-- Declaring a function adds no other one. -/
theorem Module.declareFunction_only {target second : Module} {name : String} {params : List Param}
    {ret : Ty} {func other : FuncId} {function : Function}
    (declared : target.declareFunction name params ret = .ok func second)
    (found : second.function? other = some function) :
    target.function? other = some function ∨ function = .declared name params ret := by
  rcases declareFunction_ok declared with ⟨missing, rfl, rfl⟩ | ⟨rfl, _⟩
  · replace found :=
      (@function?_addFunction target (.declared name params ret) missing _).symm.trans found
    split at found
    · cases found
      exact .inr rfl
    · exact .inl found
  · exact .inl found

end TreeLowering.Ir

namespace TreeLowering.Lowering.Build

open TreeLowering.Ir TreeLowering.Tree

variable {α : Type} {builder : Builder}

/-! ### Questions -/

theorem returns_ask {question : Module → Except Ir.Error α} {post : α → Builder → Prop}
    (holds : ∀ answer, question builder.target = .ok answer → post answer builder) :
    Returns (ask question) builder post := by
  intro result after returned
  unfold ask at returned
  cases answered : question builder.target with
  | ok answer =>
    rw [answered] at returned
    cases returned
    exact holds _ answered
  | error cause =>
    rw [answered] at returned
    cases returned

theorem returns_measure {question : Builder → Except Trap α} {post : α → Builder → Prop}
    (holds : ∀ answer, question builder = .ok answer → post answer builder) :
    Returns (measure question) builder post := by
  intro result after returned
  unfold measure at returned
  cases measured : question builder with
  | ok answer =>
    rw [measured] at returned
    cases returned
    exact holds _ measured
  | error cause =>
    rw [measured] at returned
    cases returned

theorem returns_change {step : Module → Module} {post : Unit → Builder → Prop} :
    Returns (change step) builder post ↔
      post () { builder with target := step builder.target } := returns_modify

theorem returns_currentFunction {post : FuncId → Builder → Prop}
    (holds : ∀ func, builder.current = some func → post func builder) :
    Returns currentFunction builder post := by
  unfold currentFunction
  rw [returns_bind, returns_get]
  cases current : builder.current with
  | none => exact fun _ _ impossible => by cases impossible
  | some func => exact returns_pure.2 (holds func current)

theorem returns_insertionPoint {post : Cursor → Builder → Prop}
    (holds : ∀ cursor, builder.cursor = some cursor → post cursor builder) :
    Returns insertionPoint builder post := by
  unfold insertionPoint
  rw [returns_bind, returns_get]
  cases positioned : builder.cursor with
  | none => exact fun _ _ impossible => by cases impossible
  | some cursor => exact returns_pure.2 (holds cursor positioned)

theorem returns_ensureEntry {func : FuncId} {post : BlockId → Builder → Prop}
    (holds : post Function.entryId { builder with
      target := builder.target.modifyFunction func Function.withEntry }) :
    Returns (ensureEntry func) builder post := by
  unfold ensureEntry
  rw [returns_bind]
  refine returns_ask fun function _ => ?_
  rw [returns_bind, returns_change, returns_pure]
  exact holds

/-! ### Emission -/

/-- An operation is added at the cursor, with the next temporary for its result. -/
theorem returns_emitTemp {op : Operation} {ty : Ty} {post : Value → Builder → Prop}
    (holds : ∀ cursor, builder.cursor = some cursor →
      builder.target.checkOpen cursor.func cursor.block = .ok () →
      post (.reg (.temp builder.nextTemp) ty) { builder with
        nextTemp := builder.nextTemp + 1
        target := builder.target.modifyBlock cursor.func cursor.block fun found =>
          found.append ⟨.temp builder.nextTemp, ty, op⟩ }) :
    Returns (emitTemp op ty) builder post := by
  unfold emitTemp freshName append appendAt
  simp only [returns_bind, returns_get, returns_modify, returns_pure]
  refine returns_insertionPoint fun cursor positioned => ?_
  refine returns_ask fun _ opened => ?_
  rw [returns_change]
  exact holds cursor positioned opened

/-- The builder after the name of a slot was handed out; only a variable has a slot with a name. -/
structure SlotNamed (variableName : Option String) (before after : Builder) (name : ValueName) :
    Prop where
  target : after.target = before.target
  cursor : after.cursor = before.cursor
  current : after.current = before.current
  slots : after.slotCount = before.slotCount
  options : after.options = before.options
  temps : before.nextTemp ≤ after.nextTemp
  names : ∀ text ∈ before.usedNames, text ∈ after.usedNames
  fresh : (∃ number, before.nextTemp ≤ number ∧ name = .temp number) ∨
    ∃ text, text ∉ before.usedNames ∧ name = .named text
  spent : ∀ number, name = .temp number → number < after.nextTemp
  used : ∀ text, name = .named text → text ∈ after.usedNames
  temporary : variableName = none → ∃ number, name = .temp number

theorem returns_slotName (variableName : Option String) :
    Returns (slotName variableName) builder fun name after =>
      SlotNamed variableName builder after name := by
  cases variableName with
  | none =>
    unfold slotName freshName
    simp only [returns_bind, returns_get, returns_modify, returns_pure]
    refine ⟨rfl, rfl, rfl, rfl, rfl, Nat.le_succ _, fun _ => id, .inl ⟨_, Nat.le_refl _, rfl⟩,
      fun number same => ?_, nofun, fun _ => ⟨_, rfl⟩⟩
    cases same
    exact Nat.lt_succ_self _
  | some name =>
    unfold slotName uniqueName
    simp only [returns_bind, returns_get, returns_modify, returns_pure]
    refine ⟨rfl, rfl, rfl, rfl, rfl, Nat.le_refl _, fun _ => List.mem_cons_of_mem _,
      .inr ⟨_, builder.freeNumber_not_mem _, rfl⟩, nofun, fun text same => ?_, nofun⟩
    cases same
    exact List.mem_cons_self

/-- A slot goes behind the slots that were counted. -/
theorem returns_alloca {ty : Ty} {variableName : Option String} {post : Value → Builder → Prop}
    (holds : ∀ func name start, builder.current = some func →
      SlotNamed variableName builder start name →
      post (.reg name (.ptr ty true)) { start with
        slotCount := start.slotCount + 1
        target := (start.target.modifyFunction func Function.withEntry).modifyBlock func
          Function.entryId fun found =>
            found.insert start.slotCount ⟨name, .ptr ty true, .alloca ty⟩ }) :
    Returns (alloca ty variableName) builder post := by
  unfold alloca
  rw [returns_bind]
  refine returns_currentFunction fun func current => ?_
  rw [returns_bind]
  refine (returns_slotName variableName).mono fun name start named => ?_
  rw [returns_bind]
  refine returns_ensureEntry ?_
  unfold insertAt
  simp only [returns_bind, returns_get]
  refine returns_ask fun _ _ => ?_
  rw [returns_change, returns_pure, returns_modify, returns_pure]
  exact holds func name start current named

/-! ### Blocks -/

theorem returns_newBlock {hint : String} {post : BlockId → Builder → Prop}
    (holds : ∀ func function, builder.current = some func →
      builder.target.function? func = some function →
      post function.nextBlock { builder with
        target := builder.target.modifyFunction func fun function => function.addBlock hint }) :
    Returns (newBlock hint) builder post := by
  unfold newBlock addBlock
  rw [returns_bind]
  refine returns_currentFunction fun func current => ?_
  rw [returns_bind]
  refine returns_ask fun _ _ => ?_
  rw [returns_bind]
  refine returns_ask fun function got => ?_
  rw [returns_bind, returns_change, returns_pure]
  refine holds func function current ?_
  unfold Module.getFunction at got
  split at got
  · next found =>
    cases got
    exact found
  · cases got

theorem returns_terminate {terminator : Terminator} {post : Unit → Builder → Prop}
    (holds : ∀ cursor, builder.cursor = some cursor →
      builder.target.checkOpen cursor.func cursor.block = .ok () →
      post () { builder with
        cursor := none
        target := builder.target.modifyBlock cursor.func cursor.block fun found =>
          found.terminate terminator }) :
    Returns (terminate terminator) builder post := by
  unfold terminate terminateAt
  rw [returns_bind]
  refine returns_insertionPoint fun cursor positioned => ?_
  rw [returns_bind, returns_bind]
  refine returns_ask fun _ opened => ?_
  rw [returns_change, returns_modify]
  exact holds cursor positioned opened

theorem returns_positionAt {func : FuncId} {id : BlockId} {post : Unit → Builder → Prop}
    (holds : ∀ target, target = builder.target.modifyFunction func Function.withEntry →
      target.checkOpen func id = .ok () →
      post () { Builder.enter { builder with target } func with cursor := some ⟨func, id⟩ }) :
    Returns (positionAt func id) builder post := by
  unfold positionAt
  rw [returns_bind]
  refine returns_ensureEntry ?_
  rw [returns_bind]
  refine returns_ask fun _ opened => ?_
  rw [returns_modify]
  exact holds _ rfl opened

/-! ### Stores -/

theorem returns_declare {declaration : Module → EStateM.Result Ir.Error Module α}
    {post : α → Builder → Prop}
    (holds : ∀ answer target, declaration builder.target = .ok answer target →
      post answer { builder with target }) :
    Returns (declare declaration) builder post := by
  intro result after returned
  unfold declare at returned
  cases declared : declaration builder.target with
  | ok answer =>
    rw [declared] at returned
    cases returned
    exact holds _ _ declared
  | error cause =>
    rw [declared] at returned
    cases returned

/-- The instructions that a store may become: the store itself, or a call of the copy routine. -/
inductive StoreStep (address value : Value) : Operation → Ty → Prop
  | store : StoreStep address value (.store address value) .unit
  | cast (kind : CastKind) (operand : Value) (ty : Ty) :
      StoreStep address value (.cast kind operand) ty
  | call (name : String) (params : List Ty) (args : List Value) :
      StoreStep address value (.call (.global name (.func params .unit)) args) .unit

theorem StoreStep.isPhi {address value : Value} {op : Operation} {ty : Ty}
    (step : StoreStep address value op ty) : op.isPhi = false := by
  cases step <;> rfl

/-- The copy routine returns nothing. -/
theorem returns_copyRoutine {post : Value → Builder → Prop}
    (holds : Returns (declare fun target =>
      target.declareFunction builder.options.copySymbol copyParams .unit) builder
      fun _ after => ∀ name params, post (.global name (.func params .unit)) after) :
    Returns copyRoutine builder post := by
  have promised : Returns (declare fun target =>
      target.declareFunction builder.options.copySymbol copyParams .unit) builder
      fun func after => ∃ function, after.target.function? func = some function ∧
        function.ret = .unit :=
    returns_declare fun _ _ declared => Module.declareFunction_ret declared
  unfold copyRoutine
  rw [returns_bind, returns_get, returns_bind]
  intro func after declared
  obtain ⟨function, found, unit⟩ := promised func after declared
  refine returns_ask fun routine named => ?_
  rw [Module.functionRef, Module.getFunction_of_found found] at named
  cases named
  rw [Function.signature, unit]
  exact holds func after declared _ _

/-- What survives the instructions that a store may become, the declaration of the copy routine and
the loss of a load survives a store. -/
theorem returns_store_steps {invariant : Builder → Prop} {address value : Value}
    (start : invariant builder)
    (emits : ∀ {builder op ty}, invariant builder → StoreStep address value op ty →
      Returns (emitTemp op ty) builder fun _ => invariant)
    (declares : ∀ {builder name params ret}, invariant builder →
      Returns (declare fun target => target.declareFunction name params ret) builder
        fun _ => invariant)
    (drops : ∀ {cursor position origin},
      builder.copySource? value = .ok (some (cursor, position, origin)) →
      invariant { builder with
        target := builder.target.modifyBlock cursor.func cursor.block fun found =>
          found.remove position }) :
    Returns (store address value) builder fun _ => invariant := by
  unfold store
  rw [returns_bind]
  refine returns_measure fun found source => ?_
  cases found with
  | none =>
    simp only
    rw [returns_bind]
    exact (emits start .store).mono fun _ _ kept => returns_pure.2 kept
  | some found =>
    obtain ⟨cursor, position, origin⟩ := found
    simp only
    rw [returns_bind]
    unfold removeAt
    rw [returns_bind]
    refine returns_ask fun _ _ => ?_
    rw [returns_bind, returns_change, returns_pure]
    unfold copyAggregate
    simp only [returns_bind]
    refine returns_measure fun size _ => ?_
    refine returns_copyRoutine ((declares (drops source)).mono fun _ second kept name params => ?_)
    refine (emits kept (.cast ..)).mono fun _ third kept => ?_
    refine (emits kept (.cast ..)).mono fun _ fourth kept => ?_
    exact (emits kept (.call ..)).mono fun _ fifth kept => returns_pure.2 kept

/-- What survives emission, the declaration of the copy routine and the loss of a load survives a
store. -/
theorem returns_store {invariant : Builder → Prop} {address value : Value}
    (start : invariant builder)
    (emits : ∀ {builder op ty}, invariant builder → op.isPhi = false →
      Returns (emitTemp op ty) builder fun _ => invariant)
    (declares : ∀ {builder name params ret}, invariant builder →
      Returns (declare fun target => target.declareFunction name params ret) builder
        fun _ => invariant)
    (drops : ∀ {cursor position origin},
      builder.copySource? value = .ok (some (cursor, position, origin)) →
      invariant { builder with
        target := builder.target.modifyBlock cursor.func cursor.block fun found =>
          found.remove position }) :
    Returns (store address value) builder fun _ => invariant :=
  returns_store_steps start (fun kept step => emits kept step.isPhi) declares drops

theorem returns_pin {value : Value} {post : Unit → Builder → Prop}
    (holds : ∀ pinned, post () { builder with pinned }) :
    Returns (pin value) builder post := by
  unfold pin
  cases value.regName? with
  | none => exact returns_pure.2 (holds builder.pinned)
  | some name => exact returns_modify.2 (holds _)

end TreeLowering.Lowering.Build
