/-
This file proves that the constructs which do not branch are lowered soundly, given that their
parts are: literals, paths, operators, conversions, calls, assignments and borrows, fields and
elements.
-/

import TreeLowering.Lowering.Expr
import TreeLowering.Proofs.Flow.Construct

namespace TreeLowering.Lowering

open TreeLowering.Ir TreeLowering.Tree Moment

section Straight

variable {base now : Moment} {env : Env} {context : Context} {walk : Walk}

/-- A place can be used by its address. -/
abbrev PlaceOk (now : Moment) (place : Place) : Prop := now.Address place.address

/-! ### Literals -/

theorem Standing.constant (standing : Standing base now env context) {value : Value}
    (constant : ∀ params known, value.Readable params known) (none : value.regName? = none) :
    Ensures (pure value : LowerM Value) context (Yields base env (Produced base)) :=
  standing.yields (.of_constant constant none)

theorem Standing.lowerInt (standing : Standing base now env context) (source : Source)
    (value : UInt64) (ty : TypeId) :
    Ensures (lowerInt source value ty) context (Yields base env (Produced base)) :=
  standing.afterType fun _ _ _ standing' _ => standing'.constant (fun _ _ => trivial) rfl

theorem Standing.stringLiteral (standing : Standing base now env context) (text : String) :
    Ensures (stringLiteral text) context (Yields base env (Produced base)) := by
  unfold Lowering.stringLiteral
  rw [ensures_bind]
  refine (ensures_internString text).mono fun address after quietly => ?_
  obtain ⟨target, _, _, standing'⟩ := standing.quiet quietly
  split
  · exact standing'.constant (fun _ _ => trivial) rfl
  · rfl

/-! ### Places -/

theorem Standing.loadPlace (standing : Standing base now env context) {place : Place}
    (address : PlaceOk now place) :
    Ensures (loadPlace place) context (Yields base env (Produced base)) :=
  standing.emit rfl (List.forall_mem_singleton.2
    (address.usable standing.valid standing.since.toGrows))

theorem Standing.spill (standing : Standing base now env context) {value : Value}
    (produced : Produced base now value) (variableName : Option String) :
    Ensures (spill value variableName) context (Yields base env PlaceOk) := by
  unfold Lowering.spill
  refine standing.afterSlot fun address later standing' since slot => ?_
  refine standing'.afterStore slot (produced.later since standing'.live) fun last standing'' kept => ?_
  exact standing''.yields (kept address slot)

theorem ensures_derefPlace {pointer : Value} (reads : now.Reads pointer) (span : Span)
    {post : Place → Context → Prop} (rest : ∀ place, PlaceOk now place → post place context) :
    Ensures (derefPlace pointer span) context post := by
  unfold Lowering.derefPlace
  cases pointed : pointer.ty.pointee? with
  | none => rfl
  | some target =>
    refine rest _ ⟨reads, ?_⟩
    cases ty : pointer.ty <;> rw [ty] at pointed <;> first | rfl | cases pointed

/-- Following references loads one pointer after the other. -/
theorem Standing.followReferences (standing : Standing base now env context) (span : Span)
    (count : Nat) {place : Place} (address : PlaceOk now place) :
    Ensures (followReferences span count place) context (Yields base env PlaceOk) := by
  induction count generalizing now context place with
  | zero => exact standing.yields address
  | succ count inductionHypothesis =>
    unfold Lowering.followReferences
    refine standing.afterEmit rfl (List.forall_mem_singleton.2
      (address.usable standing.valid standing.since.toGrows)) fun pointer later standing' loaded => ?_
    rw [ensures_bind]
    exact ensures_derefPlace loaded.produced.reads span fun place address' =>
      inductionHypothesis standing' address'

theorem Standing.basePlace (standing : Standing base now env context) (sound : walk.Sound)
    (part : ExprId) (references : Nat) (span : Span) :
    Ensures (basePlace walk part references span) context (Yields now context.env PlaceOk) := by
  cases references with
  | zero => exact sound.place standing.restart part
  | succ more =>
    unfold Lowering.basePlace
    refine standing.restart.thenLive (sound.expr standing.restart part)
      fun pointer later after standing' _ produced => ?_
    rw [ensures_bind]
    exact ensures_derefPlace produced.reads span fun place address =>
      standing'.followReferences span more address

theorem ensures_node (walk : Walk) (part : ExprId) {post : Node → Context → Prop}
    (rest : ∀ node, walk.program.arena.get? part = some node → post node context) :
    Ensures (walk.node part) context post := by
  unfold Walk.node
  cases found : walk.program.arena.get? part with
  | none => rfl
  | some node => exact rest node found

theorem ensures_typeOf (walk : Walk) (part : ExprId) {post : TypeId → Context → Prop}
    (rest : ∀ ty, post ty context) : Ensures (walk.typeOf part) context post := by
  unfold Walk.typeOf
  rw [ensures_bind]
  exact ensures_node walk part fun node _ => rest node.ty

/-- An address inside what a place holds. -/
theorem Standing.afterGep {β : Type} {baseTy elemTy : Ty} {address : Value} {indices : List Value}
    {next : Value → LowerM β} {post : β → Context → Prop}
    (standing : Standing base now env context) (address' : now.Address address)
    (usable : ∀ index ∈ indices, Usable base now index)
    (rest : ∀ value later, Standing base later env { context with builder := later.builder } →
      Emitted base now later value (.ptr elemTy (Build.writable address)) →
      Ensures (next value) { context with builder := later.builder } post) :
    Ensures (build (Build.gep baseTy address indices elemTy) >>= next) context post := by
  refine standing.afterEmit rfl (fun value operand => ?_) rest
  rcases List.mem_cons.1 operand with rfl | index
  · exact address'.usable standing.valid standing.since.toGrows
  · exact usable value index

theorem fieldIndices_usable (position : Nat) :
    ∀ index ∈ fieldIndices position, Usable base now index := by
  intro index member
  rcases List.mem_pair.1 member with rfl | rfl <;> exact .constant _ _

theorem Standing.fieldPlace (standing : Standing base now env context) (sound : walk.Sound)
    (part : ExprId) (field : Name) (span : Span) :
    Ensures (fieldPlace walk part field span) context (Yields base env PlaceOk) := by
  unfold Lowering.fieldPlace
  rw [ensures_bind]
  refine ensures_typeOf walk part fun ty => ?_
  refine standing.thenLive (standing.basePlace sound part _ span)
    fun place second after standing₂ _ address => ?_
  split
  · rfl
  · split
    · rfl
    · refine standing₂.afterType fun fieldTy third after standing₃ since => ?_
      have address₃ := address.mono since.toGrows (since.here standing₃.live)
      refine standing₃.afterGep address₃ (fieldIndices_usable _) fun value _ standing₄ emitted => ?_
      exact standing₄.yields (emitted.address rfl)

theorem Standing.elementPlace (standing : Standing base now env context) (sound : walk.Sound)
    (part position : ExprId) (span : Span) :
    Ensures (elementPlace walk part position span) context (Yields base env PlaceOk) := by
  unfold Lowering.elementPlace
  rw [ensures_bind]
  refine ensures_typeOf walk part fun ty => ?_
  refine standing.thenLive (standing.basePlace sound part _ span)
    fun place second after standing₂ _ address => ?_
  split
  · refine standing₂.thenLive (sound.expr standing₂.restart position)
      fun index third after standing₃ since produced => ?_
    have address₃ := address.mono since.toGrows (since.here standing₃.live)
    refine standing₃.afterGep address₃ (fun value member => ?_) fun value _ standing₄ emitted => ?_
    · rcases List.mem_pair.1 member with rfl | rfl
      · exact .constant _ _
      · exact (produced.rebase standing₂.since.toGrows).usable standing₃.valid
          standing₃.since.toGrows
    · exact standing₄.yields (emitted.address rfl)
  · rfl

/-! ### Paths -/

theorem ensures_singleName (walk : Walk) (segments : List Name) (span : Span)
    {post : Name → Context → Prop} (rest : ∀ name, segments = [name] → post name context) :
    Ensures (walk.singleName segments span) context post := by
  unfold Walk.singleName
  split
  · exact rest _ rfl
  · rfl
  · rfl

theorem Standing.globalPlace (standing : Standing base now env context) (source : Source)
    (name : Name) (span : Span) {post : Place → Context → Prop}
    (rest : ∀ place later after, Standing base later env after → PlaceOk later place →
      post place after) : Ensures (globalPlace source name span) context post := by
  unfold Lowering.globalPlace
  dsimp only
  rw [ensures_bind, ensures_resolveSymbol]
  split
  · refine standing.afterType fun ty second after standing₂ _ => ?_
    rw [ensures_bind, ensures_get]
    split
    · exact rest _ second after standing₂ ⟨trivial, rfl⟩
    · rfl
  · rfl

theorem Standing.pathPlace (standing : Standing base now env context) (segments : List Name)
    (span : Span) :
    Ensures (pathPlace walk segments span) context (Yields base env PlaceOk) := by
  unfold Lowering.pathPlace
  rw [ensures_bind]
  refine ensures_singleName walk segments span fun name _ => ?_
  rw [ensures_bind, ensures_localBinding]
  have usable := fun binding => @EnvOk.resolve now env standing.usable name binding
  rw [← standing.binding] at usable
  split
  · next found => exact standing.yields (usable _ found)
  · next found => exact standing.spill (Settled.produced (usable _ found)) _
  · next found => exact standing.spill (Settled.produced (usable _ found)) _
  · exact standing.globalPlace walk.toSource name span fun place _ _ standing₂ address =>
      standing₂.yields address

theorem Standing.lowerPath (standing : Standing base now env context) (segments : List Name)
    (span : Span) :
    Ensures (lowerPath walk segments span) context (Yields base env (Produced base)) := by
  unfold Lowering.lowerPath
  rw [ensures_bind]
  refine ensures_singleName walk segments span fun name _ => ?_
  rw [ensures_bind, ensures_localBinding]
  have usable := fun binding => @EnvOk.resolve now env standing.usable name binding
  rw [← standing.binding] at usable
  split
  · next found => exact standing.yields (Settled.produced (usable _ found))
  · next found => exact standing.yields (Settled.produced (usable _ found))
  · next address ty _ found =>
    exact standing.emit rfl (List.forall_mem_singleton.2
      (Address.usable (usable _ found) standing.valid standing.since.toGrows))
  · rw [ensures_bind, ensures_resolveSymbol]
    split
    · refine standing.afterQuiet _ (ensures_functionForSymbol walk.toSource _ _ span)
        fun func second after standing₂ _ found => ?_
      obtain ⟨function, stored⟩ := found
      rw [ensures_build, ensures_ask (Module.functionRef_of_found stored)]
      exact standing₂.yields (.of_constant (fun _ _ => trivial) rfl)
    · rw [ensures_bind]
      exact standing.globalPlace walk.toSource name span fun place _ _ standing₂ address =>
        standing₂.loadPlace address

/-! ### Calls -/

theorem Standing.afterCalled {β : Type} (standing : Standing base now env context) (name : Name)
    (span : Span) {next : FuncId → LowerM β} {post : β → Context → Prop}
    (rest : ∀ func later after function, Standing base later env after →
      after.builder.target.function? func = some function → Ensures (next func) after post) :
    Ensures (calledFunction walk name span >>= next) context post := by
  unfold Lowering.calledFunction
  rw [ensures_bind, ensures_bind, ensures_localBinding]
  split
  · rfl
  · dsimp only
    rw [ensures_bind, ensures_resolveSymbol]
    split
    · rw [← ensures_bind]
      refine standing.afterQuiet _ (ensures_functionForSymbol walk.toSource _ _ span)
        fun func second after standing₂ _ found => ?_
      obtain ⟨function, stored⟩ := found
      exact rest func second after function standing₂ stored
    · rfl
    · rfl

/-- The arguments are computed one after the other, and none is used before the call. -/
theorem Standing.lowerArgs (standing : Standing base now env context) (sound : walk.Sound)
    {callee : Value} (global : ∀ now, Usable base now callee) (ret : Ty) (args : List ExprId)
    {done : List Value} (produced : ∀ value ∈ done, Produced base now value) :
    Ensures (lowerArgs walk callee ret done args) context (Yields base env (Produced base)) := by
  induction args generalizing now context done with
  | nil =>
    refine standing.emit rfl fun value operand => ?_
    rcases List.mem_cons.1 operand with rfl | member
    · exact global now
    · exact (produced value (List.mem_reverse.1 member)).usable standing.valid standing.since.toGrows
  | cons arg rest inductionHypothesis =>
    refine standing.withValue sound fun value later after standing₂ since produced₂ => ?_
    refine inductionHypothesis standing₂ fun other member => ?_
    rcases List.mem_cons.1 member with rfl | member
    · exact produced₂.rebase standing.since.toGrows
    · exact (produced other member).later since standing₂.live

theorem Standing.lowerCall (standing : Standing base now env context) (sound : walk.Sound)
    (callee : ExprId) (args : List ExprId) (span : Span) :
    Ensures (lowerCall walk callee args span) context (Yields base env (Produced base)) := by
  unfold Lowering.lowerCall
  rw [ensures_bind]
  refine ensures_node walk callee fun node _ => ?_
  split
  · rw [ensures_bind]
    refine ensures_singleName walk _ span fun name _ => ?_
    refine standing.afterCalled name span fun func second after function standing₂ stored => ?_
    rw [ensures_bind, ensures_build, ensures_ask (Module.functionRef_of_found stored), ensures_bind,
      ensures_build, ensures_ask (Module.getFunction_of_found stored)]
    exact standing₂.lowerArgs sound (fun _ => .global _ _) _ args
      fun _ member => by cases member
  · rfl

/-! ### Operators and conversions -/

theorem Standing.afterBinary (standing : Standing base now env context) (op : BinaryOp)
    {left right : Value} (first : Usable base now left) (second : Usable base now right)
    (span : Span) {β : Type} {next : Value → LowerM β} {post : β → Context → Prop}
    (rest : ∀ value later, Standing base later env { context with builder := later.builder } →
      Produced base later value → (∀ other, now.Reads other → later.Reads other) →
      Ensures (next value) { context with builder := later.builder } post) :
    Ensures (emitBinary op left right span >>= next) context post := by
  have operands : ∀ value ∈ [left, right], Usable base now value := fun value member => by
    rcases List.mem_pair.1 member with rfl | rfl
    · exact first
    · exact second
  unfold Lowering.emitBinary
  dsimp only
  split
  · exact standing.afterEmit rfl operands fun value later standing' emitted =>
      rest value later standing' emitted.produced emitted.kept
  · split
    · exact standing.afterEmit rfl operands fun value later standing' emitted =>
        rest value later standing' emitted.produced emitted.kept
    · rfl

theorem Standing.lowerEager (standing : Standing base now env context) (sound : walk.Sound)
    (op : BinaryOp) (left right : ExprId) (span : Span) :
    Ensures (walk.withValue left fun left =>
      walk.withValue right fun right => emitBinary op left right span) context
      (Yields base env (Produced base)) := by
  refine standing.withValue sound fun left second after standing₂ _ produced => ?_
  refine standing₂.withValue sound fun right third after standing₃ since produced' => ?_
  have left₃ := (produced.later since standing₃.live).rebase standing.since.toGrows
  have right₃ := produced'.rebase standing₂.since.toGrows
  rw [← bind_pure (emitBinary op left right span)]
  exact standing₃.afterBinary op (left₃.usable standing₃.valid standing₃.since.toGrows)
    (right₃.usable standing₃.valid standing₃.since.toGrows) span
    fun value _ standing₄ result _ => standing₄.yields result

theorem Standing.lowerUnary (standing : Standing base now env context) (sound : walk.Sound)
    (op : UnaryOp) (operand : ExprId) :
    Ensures (lowerUnary walk op operand) context (Yields base env (Produced base)) :=
  standing.withValue sound fun _ _ _ standing₂ _ produced =>
    standing₂.emit rfl (List.forall_mem_singleton.2
      ((produced.rebase standing.since.toGrows).usable standing₂.valid standing₂.since.toGrows))

theorem Standing.lowerCast (standing : Standing base now env context) (sound : walk.Sound)
    (operand : ExprId) (ty : TypeId) (span : Span) :
    Ensures (lowerCast walk operand ty span) context (Yields base env (Produced base)) := by
  refine standing.withValue sound fun value second after standing₂ _ produced => ?_
  refine standing₂.afterType fun wanted third after standing₃ since => ?_
  have value₃ := (produced.later since standing₃.live).rebase standing.since.toGrows
  split_ifs
  · exact standing₃.yields value₃
  · split
    · exact standing₃.emit rfl (List.forall_mem_singleton.2
        (value₃.usable standing₃.valid standing₃.since.toGrows))
    · rfl

/-! ### Assignments and borrows -/

theorem Standing.withTarget (standing : Standing base now env context) (sound : walk.Sound)
    (target : ExprId) (span : Span) {next : Place → LowerM Value}
    (rest : ∀ place later after, Standing base later env after → PlaceOk later place →
      Ensures (next place) after (Yields base env (Produced base))) :
    Ensures (withTarget walk target span next) context (Yields base env (Produced base)) := by
  refine standing.thenLive (sound.place standing.restart target)
    fun place second after standing₂ _ address => ?_
  split_ifs
  · exact rest place second after standing₂ address
  · rfl

theorem Standing.lowerAssign (standing : Standing base now env context) (sound : walk.Sound)
    (target value : ExprId) (span : Span) :
    Ensures (lowerAssign walk target value span) context (Yields base env (Produced base)) := by
  refine standing.withTarget sound target span fun place second after standing₂ address => ?_
  refine standing₂.withValue sound fun value third after standing₃ since produced => ?_
  refine standing₃.afterStore (address.mono since.toGrows (since.here standing₃.live))
    (produced.rebase standing₂.since.toGrows) fun fourth standing₄ _ => ?_
  exact standing₄.constant (fun _ _ => trivial) rfl

theorem Standing.lowerCompound (standing : Standing base now env context) (sound : walk.Sound)
    (op : BinaryOp) (target value : ExprId) (span : Span) :
    Ensures (lowerCompound walk op target value span) context
      (Yields base env (Produced base)) := by
  refine standing.withTarget sound target span fun place second after standing₂ address => ?_
  refine standing₂.afterEmit rfl (List.forall_mem_singleton.2
    (address.usable standing₂.valid standing₂.since.toGrows)) fun current third standing₃ loaded => ?_
  refine standing₃.withValue sound fun value fourth after standing₄ since produced => ?_
  have current₄ := loaded.produced.later since standing₄.live
  have value₄ := produced.rebase standing₃.since.toGrows
  have address₃ : third.Address place.address := ⟨loaded.kept _ address.reads, address.scalar⟩
  have address₄ := address₃.mono since.toGrows (since.here standing₄.live)
  refine standing₄.afterBinary op (current₄.usable standing₄.valid standing₄.since.toGrows)
    (value₄.usable standing₄.valid standing₄.since.toGrows) span
    fun combined fifth standing₅ result kept => ?_
  refine standing₅.afterStore ⟨kept _ address₄.reads, address₄.scalar⟩ result
    fun sixth standing₆ _ => ?_
  exact standing₆.constant (fun _ _ => trivial) rfl

theorem Standing.lowerBorrow (standing : Standing base now env context) (sound : walk.Sound)
    (mutable : Bool) (operand : ExprId) (span : Span) :
    Ensures (lowerBorrow walk mutable operand span) context (Yields base env (Produced base)) := by
  refine standing.thenLive (sound.place standing.restart operand)
    fun place second after standing₂ _ address => ?_
  split_ifs
  · rfl
  · dsimp only
    split_ifs
    · refine standing₂.yields ⟨address.reads, fun name ty same aggregate => ?_⟩
      have scalar := address.scalar
      rw [same, Value.ty, aggregate] at scalar
      cases scalar
    · exact standing₂.emit rfl (List.forall_mem_singleton.2
        (address.usable standing₂.valid standing₂.since.toGrows))

/-! ### Structs and arrays -/

/-- One element is stored into the slot that a literal is built in. -/
theorem Standing.afterElement {β : Type} (standing : Standing base now env context)
    {wholeTy elemTy : Ty} {slot value : Value} {indices : List Value} (address : now.Address slot)
    (constants : ∀ now, ∀ index ∈ indices, Usable now now index) (produced : Produced base now value)
    {next : Unit → LowerM β} {post : β → Context → Prop}
    (rest : ∀ later after, Standing base later env after → later.Address slot →
      Ensures (next ()) after post) :
    Ensures (storeElement wholeTy slot indices elemTy value >>= next) context post := by
  unfold storeElement
  rw [bind_assoc]
  -- the address is computed for nobody but this store, so it disturbs no value
  refine standing.restart.afterGep address (constants now) fun place second standing₂ emitted => ?_
  have standing₂' : Standing base second env { context with builder := second.builder } :=
    standing.advance emitted.valid emitted.live (standing.since.trans standing.live emitted.since)
  refine standing₂'.afterStore (emitted.address rfl) (produced.later emitted.since emitted.live)
    fun third standing₃ kept => ?_
  exact rest third _ standing₃ (kept slot ⟨emitted.kept slot address.reads, address.scalar⟩)

theorem Standing.lowerFields (standing : Standing base now env context) (sound : walk.Sound)
    (structTy : Ty) {slot : Value} (address : now.Address slot) (inits : List FieldInit)
    (span : Span) (position : Nat) (fields : List (Name × TypeId)) :
    Ensures (lowerFields walk structTy slot inits span position fields) context
      (Yields base env (Produced base)) := by
  induction fields generalizing now context position with
  | nil =>
    exact standing.emit rfl (List.forall_mem_singleton.2
      (address.usable standing.valid standing.since.toGrows))
  | cons field rest inductionHypothesis =>
    unfold Lowering.lowerFields
    split
    · rfl
    · refine standing.withValue sound fun value second after standing₂ since produced => ?_
      refine standing₂.afterType fun fieldTy third after standing₃ since' => ?_
      have value₃ := (produced.later since' standing₃.live).rebase standing.since.toGrows
      have address₂ := address.mono since.toGrows (since.here standing₂.live)
      exact standing₃.afterElement (address₂.mono since'.toGrows (since'.here standing₃.live))
        (fun _ => fieldIndices_usable position) value₃ fun fourth after standing₄ address₄ =>
          inductionHypothesis standing₄ address₄ (position + 1)

theorem Standing.lowerStructLit (standing : Standing base now env context) (sound : walk.Sound)
    (inits : List FieldInit) (ty : TypeId) (span : Span) :
    Ensures (lowerStructLit walk inits ty span) context (Yields base env (Produced base)) := by
  refine standing.afterType fun structTy second after standing₂ _ => ?_
  split
  · rfl
  · split
    · rfl
    · exact standing₂.afterSlot fun slot third standing₃ _ address =>
        standing₃.lowerFields sound structTy address inits span 0 _

theorem Standing.lowerElements (standing : Standing base now env context) (sound : walk.Sound)
    (arrayTy elemTy : Ty) {slot : Value} (address : now.Address slot) (position : Nat)
    (elems : List ExprId) :
    Ensures (lowerElements walk arrayTy elemTy slot position elems) context
      (Yields base env (Produced base)) := by
  induction elems generalizing now context position with
  | nil =>
    exact standing.emit rfl (List.forall_mem_singleton.2
      (address.usable standing.valid standing.since.toGrows))
  | cons elem rest inductionHypothesis =>
    refine standing.withValue sound fun value second after standing₂ since produced => ?_
    refine standing₂.afterElement (address.mono since.toGrows (since.here standing₂.live))
      (fun _ index member => ?_) (produced.rebase standing.since.toGrows)
      fun third after standing₃ address₃ => inductionHypothesis standing₃ address₃ (position + 1)
    rcases List.mem_pair.1 member with rfl | rfl <;> exact .constant _ _

theorem Standing.lowerArray (standing : Standing base now env context) (sound : walk.Sound)
    (elems : List ExprId) (ty : TypeId) (span : Span) :
    Ensures (lowerArray walk elems ty span) context (Yields base env (Produced base)) := by
  refine standing.afterType fun arrayTy second after standing₂ _ => ?_
  split
  · exact standing₂.afterSlot fun slot third standing₃ _ address =>
      standing₃.lowerElements sound _ _ address 0 elems
  · rfl

end Straight

end TreeLowering.Lowering
