/-
This file says when a regime is steady: every step of the builder that lowering takes keeps to its
rules. What a step does to the cursor, and that its errors blame neither the tree nor a jump, holds
under any regime and is proved once for each step.
-/

import TreeLowering.Proofs.Flow.Declare
import TreeLowering.Proofs.Regime.Rules

namespace TreeLowering.Lowering

open TreeLowering.Ir TreeLowering.Tree

/-! ### Steps and the cursor -/

namespace Build

/-- What every step of the builder but two keeps: the cursor, which is at some block when `live`
says so, and the declared types. -/
structure Stayed (live : Bool) (before after : Builder) : Prop where
  cursor : after.cursor = before.cursor
  types : after.target.types = before.target.types
  live : live = true → after.cursor.isSome = true

/-- The step leaves the cursor where it is, or fails with a plain error. -/
def Stays {α : Type} (live : Bool) (action : BuildM α) : Prop :=
  ∀ builder, Ends action builder (fun _ after => Stayed live builder after)
    fun cause _ => cause.isPlain = true

section Stays

variable {α β : Type} {live live' : Bool}

theorem Stayed.of_same {before after : Builder} (cursor : after.cursor = before.cursor)
    (types : after.target.types = before.target.types) : Stayed false before after :=
  ⟨cursor, types, fun never => absurd never Bool.false_ne_true⟩

theorem Stays.bind {action : BuildM α} {next : α → BuildM β} (first : Stays live action)
    (rest : ∀ result, Stays live' (next result)) : Stays (live || live') (action >>= next) := by
  intro builder
  rw [ends_bind]
  refine (first builder).mono (fun result middle stayed => ?_) fun _ _ => id
  refine (rest result middle).mono (fun _ after stayed' => ?_) fun _ _ => id
  refine ⟨stayed'.cursor.trans stayed.cursor, stayed'.types.trans stayed.types, fun either => ?_⟩
  rcases Bool.or_eq_true_iff.1 either with now | later
  · rw [stayed'.cursor]
    exact stayed.live now
  · exact stayed'.live later

theorem Stays.pure (result : α) : Stays false (pure result : BuildM α) :=
  fun _ => .of_same rfl rfl

/-- A change of the builder, and an answer. -/
theorem Stays.set {change : Builder → Builder} {result : α}
    (same : ∀ builder, Stayed false builder (change builder)) :
    Stays false (do
      modify change
      return result) :=
  fun builder => same builder

theorem Stays.modify {change : Builder → Builder}
    (same : ∀ builder, Stayed false builder (change builder)) : Stays false (modify change) :=
  fun builder => same builder

theorem Stays.get : Stays false (get : BuildM Builder) :=
  fun _ => .of_same rfl rfl

/-- Changing a function changes neither the cursor nor the types. -/
theorem Stays.change {func : FuncId} {step : Function → Function}
    {named : ∀ function, (step function).name = function.name} :
    Stays false (Build.change fun target => target.modifyFunction func step named) :=
  .modify fun _ => .of_same rfl rfl

/-- A question whose failure is a plain error. -/
def Fair {α : Type} (question : Module → Except Ir.Error α) : Prop :=
  ∀ target cause, question target = .error cause → (Error.ir cause).isPlain = true

theorem Stays.ask {question : Module → Except Ir.Error α} (fair : Fair question) :
    Stays false (Build.ask question) := by
  intro builder
  unfold Ends Build.ask
  cases answered : question builder.target with
  | ok answer => exact .of_same rfl rfl
  | error cause => exact fair _ _ answered

theorem Stays.measure (question : Builder → Except Trap α) : Stays false (Build.measure question) := by
  intro builder
  unfold Ends Build.measure
  cases question builder with
  | ok answer => exact .of_same rfl rfl
  | error cause => rfl

theorem Stays.declare {declaration : Module → EStateM.Result Ir.Error Module α}
    (fair : ∀ target cause second, declaration target = .error cause second →
      (Error.ir cause).isPlain = true)
    (types : ∀ target answer second, declaration target = .ok answer second →
      second.types = target.types) :
    Stays false (Build.declare declaration) := by
  intro builder
  unfold Ends Build.declare
  cases declared : declaration builder.target with
  | ok answer => exact .of_same rfl (types _ _ _ declared)
  | error cause => exact fair _ _ _ declared

end Stays

/-! ### Questions and declarations -/

theorem fair_bind {α β : Type} {question : Module → Except Ir.Error α}
    {next : Module → α → Except Ir.Error β} (first : Fair question)
    (rest : ∀ result, Fair fun target => next target result) :
    Fair fun target => question target >>= next target := by
  intro target cause failed
  change question target >>= next target = _ at failed
  cases answered : question target with
  | ok result =>
    rw [answered] at failed
    exact rest result target cause failed
  | error cause' =>
    rw [answered] at failed
    cases failed
    exact first target _ answered

theorem fair_getFunction (func : FuncId) : Fair fun target => target.getFunction func := by
  intro target cause failed
  simp only [Module.getFunction] at failed
  split at failed
  · cases failed
  · cases failed
    rfl

theorem fair_getBlock (func : FuncId) (block : BlockId) :
    Fair fun target => target.getBlock func block := by
  refine fair_bind (fair_getFunction func) fun function target cause failed => ?_
  unfold Function.getBlock at failed
  split at failed
  · cases failed
  · cases failed
    rfl

theorem fair_checkOpen (func : FuncId) (block : BlockId) :
    Fair fun target => target.checkOpen func block := by
  refine fair_bind (fair_getBlock func block) fun found target cause failed => ?_
  split at failed
  · cases failed
    rfl
  · cases failed

theorem fair_checkRoom (func : FuncId) : Fair fun target => target.checkRoom func := by
  refine fair_bind (fair_getFunction func) fun function target cause failed => ?_
  split at failed
  · cases failed
  · cases failed
    rfl

theorem fair_functionRef (func : FuncId) : Fair fun target => target.functionRef func :=
  fair_bind (fair_getFunction func) fun _ _ _ failed => by cases failed

theorem stays_declareFunction (name : String) (params : List Ir.Param) (ret : Ty) :
    Stays false (declare fun target => target.declareFunction name params ret) := by
  refine .declare (fun target cause second failed => ?_) fun target answer second declared =>
    (Module.declareFunction_elsewhere declared).1
  obtain ⟨-, ⟨_, _, rfl⟩ | ⟨_, _, _, _, _, rfl⟩⟩ := Module.declareFunction_error failed <;> rfl

theorem stays_declareGlobal (global : Global) :
    Stays false (declare fun target => target.declareGlobal global) := by
  refine .declare (fun target cause second failed => ?_) fun target answer second declared =>
    (Module.declareGlobal_elsewhere declared).1
  obtain ⟨-, _, _, _, rfl⟩ := Module.declareGlobal_error failed
  rfl

/-! ### Steps of the builder -/

theorem stays_currentFunction : Stays false currentFunction := by
  refine Stays.get.bind fun builder => (?_ : Stays false _)
  split
  · exact .pure _
  · exact fun _ => rfl

theorem stays_insertionPoint : Stays true insertionPoint := by
  intro builder
  unfold insertionPoint
  rw [ends_bind, ends_get]
  split
  · next found => exact ⟨rfl, rfl, fun _ => by rw [found]; rfl⟩
  · rfl

theorem stays_ensureEntry (func : FuncId) : Stays false (ensureEntry func) :=
  (Stays.ask (fair_getFunction func)).bind fun _ => Stays.change.bind fun _ => .pure _

theorem stays_newBlock (hint : String) : Stays false (newBlock hint) :=
  stays_currentFunction.bind fun func => (Stays.ask (fair_checkRoom func)).bind fun _ =>
    (Stays.ask (fair_getFunction func)).bind fun _ => Stays.change.bind fun _ => .pure _

theorem stays_freshName : Stays false freshName :=
  Stays.get.bind fun _ => .set fun _ => .of_same rfl rfl

theorem stays_append (inst : Instruction) : Stays true (append inst) :=
  stays_insertionPoint.bind fun _ => (Stays.ask (fair_checkOpen _ _)).bind fun _ =>
    Stays.change.bind fun _ => .pure _

theorem stays_emitTemp (op : Operation) (ty : Ty) : Stays true (emitTemp op ty) :=
  stays_freshName.bind fun _ => stays_append _

theorem stays_slotName (variableName : Option String) : Stays false (slotName variableName) := by
  cases variableName with
  | none => exact stays_freshName
  | some name =>
    have unique : Stays false (uniqueName (name ++ ".addr")) :=
      Stays.get.bind fun _ => .set fun _ => .of_same rfl rfl
    exact unique.bind fun _ => .pure _

theorem stays_alloca (ty : Ty) (variableName : Option String) :
    Stays false (alloca ty variableName) :=
  stays_currentFunction.bind fun func => (stays_slotName variableName).bind fun _ =>
    (stays_ensureEntry func).bind fun _ => Stays.get.bind fun _ =>
      ((Stays.ask (fair_getBlock _ _)).bind fun _ => Stays.change.bind fun _ => .pure _).bind
        fun _ => .set fun _ => .of_same rfl rfl

theorem stays_pin (value : Value) : Stays false (pin value) := by
  unfold pin
  split
  · exact .modify fun _ => .of_same rfl rfl
  · exact .pure _

theorem stays_copyAggregate (destination origin : Value) (ty : Ty) :
    Stays true (copyAggregate destination origin ty) := by
  have routine : Stays false copyRoutine := Stays.get.bind fun _ =>
    (stays_declareFunction _ _ _).bind fun func => .ask (fair_functionRef func)
  exact (Stays.measure _).bind fun _ => routine.bind fun _ => (stays_emitTemp _ _).bind fun _ =>
    (stays_emitTemp _ _).bind fun _ => (stays_emitTemp _ _).bind fun _ => .pure _

theorem stays_store (address value : Value) : Stays true (store address value) := by
  refine (Stays.measure _).bind fun source => (?_ : Stays true _)
  split
  · exact ((Stays.ask (fair_getBlock _ _)).bind fun _ => Stays.change.bind fun _ => .pure _).bind
      fun _ => stays_copyAggregate _ _ _
  · exact (stays_emitTemp _ _).bind fun _ => .pure _

/-- Moving the cursor leaves it at a block. -/
theorem ends_positionAt (func : FuncId) (block : BlockId) (builder : Builder) :
    Ends (positionAt func block) builder
      (fun _ after => after.cursor.isSome = true ∧ after.target.types = builder.target.types)
      fun cause _ => cause.isPlain = true := by
  have asked : Stays false (do
      let _ ← ensureEntry func
      ask fun target => target.checkOpen func block) :=
    (stays_ensureEntry func).bind fun _ => .ask (fair_checkOpen func block)
  unfold positionAt
  rw [← bind_assoc, ends_bind]
  refine (asked builder).mono (fun _ middle stayed => ⟨rfl, ?_⟩) fun _ _ => id
  refine Eq.trans ?_ stayed.types
  show (middle.enter func).target.types = _
  unfold Builder.enter
  split
  · rfl
  · split <;> rfl

/-- Closing a block takes the cursor away. -/
theorem ends_terminate (terminator : Terminator) (builder : Builder) :
    Ends (terminate terminator) builder
      (fun _ after => after.cursor = none ∧ after.target.types = builder.target.types)
      fun cause _ => cause.isPlain = true := by
  have closed : Stays true (do
      let cursor ← insertionPoint
      terminateAt cursor.func cursor.block terminator) :=
    stays_insertionPoint.bind fun _ => (Stays.ask (fair_checkOpen _ _)).bind fun _ => Stays.change
  unfold terminate
  rw [← bind_assoc, ends_bind]
  exact (closed builder).mono (fun _ _ stayed => ⟨rfl, stayed.types⟩) fun _ _ => id

end Build

/-! ### Steady regimes -/

/-- The steps that lowering takes keep to the rules. -/
structure Regime.Steady (regime : Regime) (source : Source) : Prop where
  pardons : ∀ cause : Error, cause.isPlain = true → regime.excused cause
  current : ∀ {builder memo func}, regime.holds builder memo → builder.current = some func →
    regime.mine func
  here : ∀ {builder memo cursor}, regime.holds builder memo → builder.cursor = some cursor →
    regime.own cursor.block
  emits : ∀ {builder memo op ty}, regime.holds builder memo →
    (∀ incoming, op = .phi incoming → regime.joins ty incoming) →
    Returns (Build.emitTemp op ty) builder fun _ after => regime.holds after memo
  reserves : ∀ {builder memo ty variableName}, regime.holds builder memo →
    Returns (Build.alloca ty variableName) builder fun _ after => regime.holds after memo
  stores : ∀ {builder memo address value}, regime.holds builder memo →
    Returns (Build.store address value) builder fun _ after => regime.holds after memo
  pins : ∀ {builder memo value}, regime.holds builder memo →
    Returns (Build.pin value) builder fun _ after => regime.holds after memo
  opens : ∀ {builder memo hint}, regime.holds builder memo →
    Returns (Build.newBlock hint) builder fun block after =>
      regime.holds after memo ∧ regime.own block ∧ regime.free block
  moves : ∀ {builder memo func block}, regime.holds builder memo → regime.mine func →
    regime.own block → Returns (Build.positionAt func block) builder fun _ after =>
      regime.holds after memo
  closes : ∀ {builder memo terminator}, regime.holds builder memo →
    (∀ target ∈ terminator.successors, regime.free target) →
    (∀ value, terminator = .ret value → regime.returns value) →
    Returns (Build.terminate terminator) builder fun _ after => regime.holds after memo
  declares : ∀ {builder memo name params ret}, regime.holds builder memo →
    Returns (Build.declare fun target => target.declareFunction name params ret) builder
      fun _ after => regime.holds after memo
  defines : ∀ {builder memo global}, regime.holds builder memo →
    Returns (Build.declare fun target => target.declareGlobal global) builder
      fun _ after => regime.holds after memo
  maps : ∀ {builder memo} (ty : TypeId), regime.holds builder memo →
    Ends (mapType source ty) ⟨memo, builder.target⟩
      (fun mapped after => regime.holds { builder with target := after.target } after.memo ∧
        regime.mapped ty mapped) fun cause _ => regime.excused cause
  loops : ∀ {env : Env} {targets : LoopTargets}, regime.free targets.breakTo →
    regime.free targets.continueTo → regime.frames env.frames →
    regime.frames (env.pushLoop targets).frames
  targets : ∀ {env : Env} {jump target}, regime.frames env.frames →
    env.target? jump = some target → regime.free target
  answers : ∀ {env : Env} {ret}, regime.frames env.frames → env.returnType? = some ret →
    regime.answers ret

namespace Regime.Steady

variable {regime : Regime} {source : Source} {view : Env → Env} {context : Context}

section Steps

variable (steady : regime.Steady source)

include steady

/-- A step that leaves the cursor where it is. -/
theorem step {α : Type} {live : Bool} {action : BuildM α} (answer : α → Prop)
    (stays : Build.Stays live action)
    (returns : regime.holds context.builder context.memo →
      Returns action context.builder fun result after =>
        regime.holds after context.memo ∧ answer result) :
    Keeps regime view (build action) context fun result after =>
      answer result ∧ after.builder.cursor = context.builder.cursor ∧
        (live = true → after.Live) := by
  refine .build (fun cause after failed => ?_) fun result after holds returned => ?_
  · exact steady.pardons cause ((stays context.builder).of_error failed)
  · obtain ⟨kept, answered⟩ := returns holds result after returned
    have stayed := (stays context.builder).of_ok returned
    exact ⟨kept, answered, stayed.cursor, stayed.live⟩

theorem emit {op : Operation} {ty : Ty}
    (joined : ∀ incoming, op = .phi incoming → regime.joins ty incoming) :
    Keeps regime view (build (Build.emitTemp op ty)) context fun _ after => after.Live :=
  (steady.step (fun _ => True) (Build.stays_emitTemp op ty) fun holds =>
    (steady.emits holds joined).mono fun _ _ kept => ⟨kept, trivial⟩).mono
      fun _ _ ⟨_, _, live⟩ => live rfl

theorem slot {ty : Ty} {variableName : Option String} :
    Keeps regime view (build (Build.alloca ty variableName)) context fun _ after =>
      after.builder.cursor = context.builder.cursor :=
  (steady.step (fun _ => True) (Build.stays_alloca ty variableName) fun holds =>
    (steady.reserves holds).mono fun _ _ kept => ⟨kept, trivial⟩).mono
      fun _ _ ⟨_, same, _⟩ => same

theorem store {address value : Value} :
    Keeps regime view (build (Build.store address value)) context fun _ after => after.Live :=
  (steady.step (fun _ => True) (Build.stays_store address value) fun holds =>
    (steady.stores holds).mono fun _ _ kept => ⟨kept, trivial⟩).mono
      fun _ _ ⟨_, _, live⟩ => live rfl

theorem pin {value : Value} :
    Keeps regime view (build (Build.pin value)) context fun _ _ => True :=
  (steady.step (fun _ => True) (Build.stays_pin value) fun holds =>
    (steady.pins holds).mono fun _ _ kept => ⟨kept, trivial⟩).mono fun _ _ _ => trivial

theorem newBlock {hint : String} :
    Keeps regime view (build (Build.newBlock hint)) context fun block _ =>
      regime.own block ∧ regime.free block :=
  (steady.step _ (Build.stays_newBlock hint) steady.opens).mono fun _ _ ⟨answer, _⟩ => answer

theorem ask {α : Type} {question : Module → Except Ir.Error α} (fair : Build.Fair question) :
    Keeps regime view (build (Build.ask question)) context fun _ after =>
      after.builder.cursor = context.builder.cursor := by
  refine (steady.step (fun _ => True) (Build.Stays.ask fair) fun holds _ _ returned =>
    ⟨?_, trivial⟩).mono fun _ _ ⟨_, same, _⟩ => same
  unfold Build.ask at returned
  split at returned
  · cases returned
    exact holds
  · cases returned

theorem declareFunction {name : String} {params : List Ir.Param} {ret : Ty} :
    Keeps regime view (build (Build.declare fun target =>
      target.declareFunction name params ret)) context fun _ after =>
        after.builder.cursor = context.builder.cursor :=
  (steady.step (fun _ => True)
    (Build.stays_declareFunction name params ret) fun holds =>
      (steady.declares holds).mono fun _ _ kept => ⟨kept, trivial⟩).mono
        fun _ _ ⟨_, same, _⟩ => same

theorem declareGlobal {global : Global} :
    Keeps regime view (build (Build.declare fun target => target.declareGlobal global)) context
      fun _ after => after.builder.cursor = context.builder.cursor :=
  (steady.step (fun _ => True)
    (Build.stays_declareGlobal global) fun holds =>
      (steady.defines holds).mono fun _ _ kept => ⟨kept, trivial⟩).mono
        fun _ _ ⟨_, same, _⟩ => same

theorem positionAt {func : FuncId} {block : BlockId} (mine : regime.mine func)
    (own : regime.own block) :
    Keeps regime view (build (Build.positionAt func block)) context fun _ after => after.Live := by
  refine .build (fun cause after failed => ?_) fun result after holds returned => ?_
  · exact steady.pardons cause ((Build.ends_positionAt func block _).of_error failed)
  · exact ⟨steady.moves holds mine own result after returned,
      ((Build.ends_positionAt func block _).of_ok returned).1⟩

theorem terminate {terminator : Terminator}
    (free : ∀ target ∈ terminator.successors, regime.free target)
    (returned : ∀ value, terminator = .ret value → regime.returns value) :
    Keeps regime view (build (Build.terminate terminator)) context fun _ after =>
      after.builder.cursor = none := by
  refine .build (fun cause after failed => ?_) fun result after holds ended => ?_
  · exact steady.pardons cause ((Build.ends_terminate terminator _).of_error failed)
  · exact ⟨steady.closes holds free returned result after ended,
      ((Build.ends_terminate terminator _).of_ok ended).1⟩

theorem jump {target : BlockId} (free : regime.free target) :
    Keeps regime view (build (Build.jump target)) context fun _ after =>
      after.builder.cursor = none :=
  steady.terminate (List.forall_mem_singleton.2 free) fun _ impossible => by cases impossible

theorem branch {test : Value} {first second : BlockId} (free : regime.free first)
    (free' : regime.free second) :
    Keeps regime view (build (Build.branch test first second)) context fun _ after =>
      after.builder.cursor = none :=
  steady.terminate (fun target member => by
    rcases List.mem_pair.1 member with rfl | rfl
    · exact free
    · exact free') fun _ impossible => by cases impossible

theorem ret {value : Option Value} (returned : regime.returns value) :
    Keeps regime view (build (Build.ret value)) context fun _ after =>
      after.builder.cursor = none :=
  steady.terminate (fun _ member => by cases member) fun _ same => by
    cases same
    exact returned

theorem lowerType {ty : TypeId} :
    Keeps regime view (lowerType source ty) context fun mapped after =>
      regime.mapped ty mapped ∧ after.builder.cursor = context.builder.cursor :=
  .mapping (steady.maps ty)

theorem currentFunction :
    Keeps regime view currentFunction context fun func after =>
      regime.mine func ∧ after.builder.cursor = context.builder.cursor := by
  refine (steady.step _ Build.stays_currentFunction fun holds func after returned => ?_).mono
    fun _ _ ⟨mine, same, _⟩ => ⟨mine, same⟩
  revert func after
  change Returns Build.currentFunction _ _
  unfold Build.currentFunction
  rw [returns_bind, returns_get]
  split
  · next found => exact returns_pure.2 ⟨holds, steady.current holds found⟩
  · exact fun _ _ impossible => by cases impossible

end Steps

end Regime.Steady

end TreeLowering.Lowering
