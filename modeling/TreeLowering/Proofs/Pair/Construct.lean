/-
This file proves that every construct can be lowered in two runs beside each other when its parts
can. The two runs may work on different programs, as long as these have their types, their scopes
and the node at hand in common.
-/

import TreeLowering.Proofs.Pair.Steady

namespace TreeLowering.Ir

/-- A pointer type is the type of a pointer to what it points at. -/
theorem Ty.eq_ptr_of_pointee? {ty pointee : Ty} {mutable : Bool}
    (found : ty.pointee? = some (pointee, mutable)) : ty = .ptr pointee mutable := by
  cases ty with
  | ptr pointee' mutable' =>
    cases found
    rfl
  | _ => cases found

end TreeLowering.Ir

namespace TreeLowering.Lowering

open TreeLowering.Ir TreeLowering.Tree

/-! ### Parts -/

/-- The same types, scopes and names, with other expressions and items. -/
@[reducible] def Source.swap (source : Source) (arena : Arena) (items : List Item) : Source :=
  { source with program := { source.program with arena, items } }

/-- What a second run has of its own. -/
structure Twin where
  arena : Arena
  items : List Item
  expr : ExprId → LowerM Value
  place : ExprId → LowerM Place

/-- The walk of the second run. -/
@[reducible] def Walk.swap (walk : Walk) (twin : Twin) : Walk :=
  { toSource := walk.toSource.swap twin.arena twin.items
    addressTaken := walk.addressTaken
    expr := twin.expr
    place := twin.place }

namespace Pairing

/-- If the expression is a path, the address of its name is used. -/
def Addressed (pairing : Pairing) (arena : Arena) (expr : ExprId) : Prop :=
  ∀ name span ty, arena.get? expr = some ⟨.path [name], span, ty⟩ → pairing.addresses name

/-- If the expression is a path, its name is looked up. -/
def LookedUp (pairing : Pairing) (arena : Arena) (scope : ScopeId) (expr : ExprId) : Prop :=
  ∀ name span ty, arena.get? expr = some ⟨.path [name], span, ty⟩ → pairing.looksUp scope name

/-- A part can be lowered in both runs. -/
structure Lowers (pairing : Pairing) (walk walk' : Walk) (scope : ScopeId) (part : ExprId) :
    Prop where
  same : walk'.program.arena.get? part = walk.program.arena.get? part
  lookedUp : pairing.LookedUp walk.program.arena scope part
  expr : ∀ context context',
    pairing.Agrees scope (walk.expr part) (walk'.expr part) context context' pairing.Yields
  place : pairing.Addressed walk.program.arena part → ∀ context context',
    pairing.Agrees scope (walk.place part) (walk'.place part) context context' pairing.Places
  target : ∀ {context context'} (span : Span) {next next' : Place → LowerM Value},
    (∀ place after after', pairing.Places place after after' →
      pairing.Agrees scope (next place) (next' place) after after' pairing.Yields) →
    pairing.Agrees scope (withTarget walk part span next) (withTarget walk' part span next')
      context context' pairing.Yields

/-- The values that reach the end of the arms may be used. -/
def Arrives (pairing : Pairing) (incoming : List (Value × BlockId)) (after after' : Context) :
    Prop :=
  ∀ arm ∈ incoming, pairing.Yields arm.1 after after'

/-- A value that takes another type may be used when that type may be. -/
theorem Yields.retype {pairing : Pairing} {context context' : Context} {ty : Ty} {value : Value}
    (yields : pairing.Yields value context context')
    (admits : pairing.Admits context.work context'.work ty) :
    pairing.Yields (retype ty value) context context' := by
  unfold Lowering.retype
  split
  · exact admits
  · exact yields

/-- A function that yields nothing returns nothing. -/
theorem returned {pairing : Pairing} {context context' : Context} {ret : Ty} {value : Value}
    (yields : pairing.Yields value context context') :
    ∀ given ∈ (if ret.isVoid then none else some value),
      pairing.Yields given context context' := by
  intro given member
  split at member
  · cases member
  · cases member
    exact yields

namespace Steady

section Pieces

variable {pairing : Pairing} {source source' : Source} {taken : List Name} {scope : ScopeId}
  {context context' : Context} (steady : pairing.Steady source source' taken)

include steady

theorem yields_unreachable (after after' : Context) :
    pairing.Yields .unreachable after after' :=
  steady.prims .never

theorem yields_unit (after after' : Context) : pairing.Yields .unit after after' :=
  steady.scalars rfl (steady.prims .unit)

theorem yields_int (value : Int) {ty : Ty} {after after' : Context}
    (admits : pairing.Admits after.work after'.work ty) :
    pairing.Yields (.int value ty) after after' :=
  steady.scalars rfl admits

theorem places_unreachable (after after' : Context) :
    pairing.Places .unreachable after after' :=
  ⟨steady.points rfl, steady.pointers.2 (steady.prims .never), steady.prims .never⟩

/-! ### Places -/

theorem derefPlace {pointer : Value} (span : Span)
    (sound : pairing.sound context.work context'.work pointer) :
    pairing.Agrees scope (derefPlace pointer span) (derefPlace pointer span) context context'
      pairing.Places := by
  unfold Lowering.derefPlace
  split
  · next ty mutable found =>
    have pointer' := Ty.eq_ptr_of_pointee? found
    have admits := steady.types sound
    rw [pointer', steady.pointers] at admits
    exact .pure ⟨steady.points pointer', sound, admits⟩
  · exact steady.fails

theorem loadPlace {place : Place} (placed : pairing.Places place context context') :
    pairing.Agrees scope (loadPlace place) (loadPlace place) context context' pairing.Yields :=
  steady.load placed

theorem spill {value : Value} {variableName : Option String}
    (named : variableName.isSome = true → pairing.namesSlots)
    (sound : pairing.sound context.work context'.work value) :
    pairing.Agrees scope (spill value variableName) (spill value variableName) context context'
      pairing.Places := by
  refine (steady.slot named (steady.types sound)).bind fun address _ _ later homes => ?_
  refine (steady.store homes (later _ sound)).bind fun _ _ _ later' _ => ?_
  exact .pure ⟨rfl, homes.later later'⟩

theorem followReferences (span : Span) (count : Nat) {place : Place}
    (placed : pairing.Places place context context') :
    pairing.Agrees scope (followReferences span count place) (followReferences span count place)
      context context' pairing.Places := by
  induction count generalizing place context context' with
  | zero => exact .pure placed
  | succ count inductionHypothesis =>
    exact (steady.loadPlace placed).bind fun pointer _ _ _ sound =>
      (steady.derefPlace span sound).bind fun place _ _ _ placed' => inductionHypothesis placed'

/-- A target whose place both runs agree on. -/
theorem withTarget {walk walk' : Walk} {part : ExprId} (span : Span)
    {next next' : Place → LowerM Value}
    (placed : pairing.Agrees scope (walk.place part) (walk'.place part) context context'
      pairing.Places)
    (rest : ∀ place after after', pairing.Places place after after' →
      pairing.Agrees scope (next place) (next' place) after after' pairing.Yields) :
    pairing.Agrees scope (withTarget walk part span next) (withTarget walk' part span next')
      context context' pairing.Yields := by
  refine steady.thenLive placed (fun place after after' _ places => ?_) steady.yields_unreachable
  split
  · exact rest place after after' places
  · exact steady.fails

theorem storeElement {wholeTy elemTy : Ty} {slot value : Value} {indices : List Value}
    (homes : pairing.Homes context.work context'.work slot wholeTy)
    (positions : ∀ index ∈ indices, pairing.sound context.work context'.work index)
    (admits : pairing.Admits context.work context'.work elemTy)
    (sound : pairing.sound context.work context'.work value) :
    pairing.Agrees scope (storeElement wholeTy slot indices elemTy value)
      (storeElement wholeTy slot indices elemTy value) context context' fun _ _ _ => True :=
  (steady.gep homes positions admits).bind fun _ _ _ later homes' =>
    steady.store homes' (later _ sound)

/-- The positions of a field or an element are constants. -/
theorem fieldIndices (position : Nat) {work work' : Work} :
    ∀ index ∈ Lowering.fieldIndices position, pairing.sound work work' index :=
  List.forall_mem_cons.2 ⟨steady.scalars rfl (steady.prims .i32),
    List.forall_mem_singleton.2 (steady.scalars rfl (steady.prims .i32))⟩

theorem elementIndices (position : Nat) {work work' : Work} :
    ∀ index ∈ Lowering.elementIndices position, pairing.sound work work' index :=
  List.forall_mem_cons.2 ⟨steady.scalars rfl (steady.prims .usize),
    List.forall_mem_singleton.2 (steady.scalars rfl (steady.prims .usize))⟩

/-! ### Values -/

theorem expectBool (value : Value) (span : Span) :
    pairing.Agrees scope (expectBool value span) (expectBool value span) context context'
      fun _ _ _ => value.ty = .bool := by
  unfold Lowering.expectBool
  split
  · next bool => exact .pure (beq_iff_eq.1 bool)
  · exact steady.fails

theorem emitBinary (op : BinaryOp) {left right : Value} (span : Span)
    (sound : pairing.sound context.work context'.work left)
    (sound' : pairing.sound context.work context'.work right) :
    pairing.Agrees scope (emitBinary op left right span) (emitBinary op left right span) context
      context' pairing.Yields := by
  have operands : ∀ value ∈ [left, right], pairing.sound context.work context'.work value :=
    List.forall_mem_cons.2 ⟨sound, List.forall_mem_singleton.2 sound'⟩
  unfold Lowering.emitBinary
  dsimp only
  split
  · exact steady.computes trivial (reads operands nofun) (steady.prims .bool)
  · split
    · exact steady.computes trivial (reads operands nofun) (steady.types sound)
    · exact steady.fails

theorem lowerInt (value : UInt64) (ty : TypeId) :
    pairing.Agrees scope (lowerInt source value ty) (lowerInt source' value ty) context context'
      pairing.Yields := by
  refine (steady.lowerType ty).bind fun found after after' _ _ => .pure ⟨rfl, ?_⟩
  refine steady.yields_int _ ?_
  unfold literalTy
  split
  · split
    · exact steady.prims _
    · exact steady.prims .i32
  · exact steady.prims .i32

theorem lowerLoopJump (jump : LoopJump) (span : Span) :
    pairing.Agrees scope (lowerLoopJump jump span) (lowerLoopJump jump span) context context'
      pairing.Yields := by
  refine Matches.get.bind ?_
  rintro _ _ context context' - ⟨rfl, rfl, rfl, rfl, rules⟩
  rw [rules.env]
  split
  · exact steady.jump.bind fun _ after after' _ _ =>
      .pure ⟨rfl, steady.yields_unreachable after after'⟩
  · exact steady.fails

end Pieces

section Constructs

variable {pairing : Pairing} {walk : Walk} {twin : Twin} {scope : ScopeId}
  {context context' : Context}
  (steady : pairing.Steady walk.toSource (walk.swap twin).toSource walk.addressTaken)

include steady

theorem withValue {part : ExprId} (lowers : pairing.Lowers walk (walk.swap twin) scope part)
    {next next' : Value → LowerM Value}
    (rest : ∀ value after after', pairing.Later context context' after after' →
      pairing.Yields value after after' →
      pairing.Agrees scope (next value) (next' value) after after' pairing.Yields) :
    pairing.Agrees scope (walk.withValue part next) ((walk.swap twin).withValue part next') context
      context' pairing.Yields :=
  steady.thenLive (lowers.expr context context') rest steady.yields_unreachable

theorem node {expr : ExprId}
    (same : twin.arena.get? expr = walk.program.arena.get? expr) :
    pairing.Agrees scope (walk.node expr) ((walk.swap twin).node expr) context context'
      fun node after after' => walk.program.arena.get? expr = some node ∧ after = context ∧
        after' = context' := by
  have same' : (walk.swap twin).program.arena.get? expr = walk.program.arena.get? expr := same
  unfold Walk.node
  rw [same']
  cases found : walk.program.arena.get? expr with
  | some node => exact .pure ⟨rfl, rfl, rfl⟩
  | none => exact steady.fails

theorem typeOf {part : ExprId} (lowers : pairing.Lowers walk (walk.swap twin) scope part) :
    pairing.Agrees scope (walk.typeOf part) ((walk.swap twin).typeOf part) context context'
      fun ty _ _ => ∃ node, walk.program.arena.get? part = some node ∧ node.ty = ty :=
  (steady.node lowers.same).bind fun node _ _ _ ⟨found, _, _⟩ => .pure ⟨rfl, node, found, rfl⟩

/-! ### Places -/

theorem basePlace {base : ExprId} (lowers : pairing.Lowers walk (walk.swap twin) scope base)
    (references : Nat) (span : Span)
    (addressed : references = 0 → pairing.Addressed walk.program.arena base) :
    pairing.Agrees scope (basePlace walk base references span)
      (basePlace (walk.swap twin) base references span) context context' pairing.Places := by
  cases references with
  | zero => exact lowers.place (addressed rfl) context context'
  | succ more =>
    refine steady.thenLive (lowers.expr context context') (fun pointer _ _ _ sound => ?_)
      steady.places_unreachable
    exact (steady.derefPlace span sound).bind fun place _ _ _ placed =>
      steady.followReferences span more placed

theorem fieldPlace {base : ExprId} (lowers : pairing.Lowers walk (walk.swap twin) scope base)
    (field : Name) (span : Span)
    (addressed : ∀ node, walk.program.arena.get? base = some node →
      (walk.program.types.peelReferences node.ty).2 = 0 →
      pairing.Addressed walk.program.arena base) :
    pairing.Agrees scope (fieldPlace walk base field span)
      (fieldPlace (walk.swap twin) base field span) context context' pairing.Places := by
  refine (steady.typeOf lowers).bind ?_
  rintro ty _ _ - ⟨node, found, rfl⟩
  refine steady.thenLive (steady.basePlace lowers _ span (addressed node found))
    (fun place _ _ _ placed => ?_) steady.places_unreachable
  dsimp only
  split
  · exact steady.fails
  · split
    · exact steady.fails
    · next fieldTy _ =>
      refine (steady.lowerType fieldTy).bind fun found _ _ later mapped => ?_
      refine (steady.gep (placed.later later) (steady.fieldIndices _) mapped.2).bind
        fun address _ _ later' homes => ?_
      exact .pure ⟨rfl, homes⟩

theorem elementPlace {base position : ExprId}
    (lowers : pairing.Lowers walk (walk.swap twin) scope base)
    (lowers' : pairing.Lowers walk (walk.swap twin) scope position) (span : Span)
    (addressed : ∀ node, walk.program.arena.get? base = some node →
      (walk.program.types.peelReferences node.ty).2 = 0 →
      pairing.Addressed walk.program.arena base) :
    pairing.Agrees scope (elementPlace walk base position span)
      (elementPlace (walk.swap twin) base position span) context context' pairing.Places := by
  refine (steady.typeOf lowers).bind ?_
  rintro ty _ _ - ⟨node, found, rfl⟩
  refine steady.thenLive (steady.basePlace lowers _ span (addressed node found))
    (fun place _ _ _ placed => ?_) steady.places_unreachable
  split
  · next elemTy len same =>
    refine steady.thenLive (lowers'.expr _ _) (fun index _ _ later sound => ?_)
      steady.places_unreachable
    have homes := placed.later later
    have whole := homes.content
    rw [same] at whole
    refine (steady.gep homes (List.forall_mem_cons.2
      ⟨steady.yields_int 0 (steady.types sound), List.forall_mem_singleton.2 sound⟩)
      (steady.elements whole)).bind fun address _ _ _ homes' => ?_
    exact .pure ⟨rfl, homes'⟩
  · exact steady.fails

/-! ### Names -/

theorem singleName (segments : List Name) (span : Span) :
    pairing.Agrees scope (walk.singleName segments span)
      ((walk.swap twin).singleName segments span) context context' fun name after after' =>
        segments = [name] ∧ after = context ∧ after' = context' := by
  unfold Walk.singleName
  split
  · exact .pure ⟨rfl, rfl, rfl⟩
  · exact steady.fails
  · exact steady.fails

theorem globalPlace {name : Name} (span : Span) (looked : pairing.looksUp scope name) :
    pairing.Agrees scope (globalPlace walk.toSource name span)
      (globalPlace (walk.swap twin).toSource name span) context context' pairing.Places := by
  refine Matches.read.bind ?_
  rintro _ _ context context' - ⟨rfl, rfl, rfl, rfl, rules⟩
  rw [rules.here, rules.here']
  cases resolved : walk.program.scopes.resolve? scope name .value with
  | none => exact steady.fails
  | some symbol =>
  cases symbol with
  | const link ty =>
    refine (steady.lowerType ty).bind fun found _ _ _ ⟨mapped, sound⟩ => ?_
    refine Matches.get.bind ?_
    rintro _ _ after after' - ⟨rfl, rfl, rfl, rfl, rules'⟩
    have known := steady.constants rules'.holds looked resolved mapped sound
    change pairing.SameGlobal _ _ _ (after.builder.target.global? (walk.names.text link))
      (after'.builder.target.global? (walk.names.text link)) at known
    cases stored : after.builder.target.global? (walk.names.text link) with
    | some global =>
      cases stored' : after'.builder.target.global? (walk.names.text link) with
      | some global' =>
        rw [stored, stored'] at known
        refine .pure ⟨?_, known.2⟩
        rw [known.1]
      | none =>
        rw [stored, stored'] at known
        exact known.elim
    | none =>
      cases stored' : after'.builder.target.global? (walk.names.text link) with
      | some global' =>
        rw [stored, stored'] at known
        exact known.elim
      | none => exact steady.fails
  | _ => exact steady.fails

theorem pathPlace {segments : List Name} (span : Span)
    (looked : ∀ name, segments = [name] → pairing.looksUp scope name)
    (addressed : ∀ name, segments = [name] → pairing.addresses name) :
    pairing.Agrees scope (pathPlace walk segments span) (pathPlace (walk.swap twin) segments span)
      context context' pairing.Places := by
  refine (steady.singleName segments span).bind ?_
  rintro name _ _ - ⟨rfl, rfl, rfl⟩
  refine Matches.read.bind ?_
  rintro _ _ context context' - ⟨rfl, rfl, rfl, rfl, rules⟩
  rw [rules.env]
  cases found : context.env.resolve? name with
  | none => exact steady.globalPlace span (looked name rfl)
  | some binding =>
    obtain ⟨bindable, fine⟩ := rules.resolved found
    cases binding with
    | slot address ty mutable => exact .pure ⟨rfl, fine⟩
    | value value =>
      exact steady.spill (fun _ => steady.homed (addressed name rfl) (.inl bindable)) fine
    | param value =>
      exact steady.spill (fun _ => steady.homed (addressed name rfl) (.inr bindable)) fine

theorem lowerPath {segments : List Name} (span : Span)
    (looked : ∀ name, segments = [name] → pairing.looksUp scope name) :
    pairing.Agrees scope (lowerPath walk segments span) (lowerPath (walk.swap twin) segments span)
      context context' pairing.Yields := by
  refine (steady.singleName segments span).bind ?_
  rintro name _ _ - ⟨rfl, rfl, rfl⟩
  refine Matches.read.bind ?_
  rintro _ _ context context' - ⟨rfl, rfl, rfl, rfl, rules⟩
  rw [rules.env]
  cases found : context.env.resolve? name with
  | some binding =>
    obtain ⟨_, fine⟩ := rules.resolved found
    cases binding with
    | slot address ty mutable => exact steady.load fine
    | value value => exact .pure ⟨rfl, fine⟩
    | param value => exact .pure ⟨rfl, fine⟩
  | none =>
    have global : pairing.Agrees scope
        (do Lowering.loadPlace (← Lowering.globalPlace walk.toSource name span))
        (do Lowering.loadPlace (← Lowering.globalPlace (walk.swap twin).toSource name span))
        context context' pairing.Yields :=
      (steady.globalPlace span (looked name rfl)).bind fun place _ _ _ placed =>
        steady.loadPlace placed
    refine Matches.read.bind ?_
    rintro _ _ context context' - ⟨rfl, rfl, rfl, rfl, rules⟩
    rw [rules.here, rules.here']
    cases resolved : walk.program.scopes.resolve? scope name .value with
    | none => exact global
    | some symbol =>
    cases symbol with
    | function link ty =>
      refine (steady.symbols (looked name rfl) resolved).bind fun func func' _ _ _ callee => ?_
      exact (steady.functionRef callee).mono fun _ _ _ _ ⟨_, _, _, yields⟩ => yields
    | _ => exact global

/-! ### Literals -/

theorem lowerFields {structTy : Ty} {slot : Value} {inits : List FieldInit} (span : Span)
    (lowers : ∀ init ∈ inits, pairing.Lowers walk (walk.swap twin) scope init.value)
    (position : Nat) (fields : List (Name × TypeId))
    (homes : pairing.Homes context.work context'.work slot structTy) :
    pairing.Agrees scope (lowerFields walk structTy slot inits span position fields)
      (lowerFields (walk.swap twin) structTy slot inits span position fields) context context'
      pairing.Yields := by
  induction fields generalizing context context' position with
  | nil => exact steady.load homes
  | cons field rest inductionHypothesis =>
    unfold Lowering.lowerFields
    split
    · exact steady.fails
    · next init found =>
      refine steady.withValue (lowers init (List.mem_of_find?_eq_some found))
        fun value _ _ later sound => ?_
      refine (steady.lowerType field.2).bind fun fieldTy _ _ later' mapped => ?_
      have homes' := (homes.later later).later later'
      refine (steady.storeElement homes' (steady.fieldIndices position) mapped.2
        (later' _ sound)).bind fun _ _ _ later'' _ => ?_
      exact inductionHypothesis (position + 1) (homes'.later later'')

theorem lowerStructLit {inits : List FieldInit}
    (lowers : ∀ init ∈ inits, pairing.Lowers walk (walk.swap twin) scope init.value) (ty : TypeId)
    (span : Span) :
    pairing.Agrees scope (lowerStructLit walk inits ty span)
      (lowerStructLit (walk.swap twin) inits ty span) context context' pairing.Yields := by
  refine (steady.lowerType ty).bind fun structTy _ _ _ mapped => ?_
  dsimp only
  split
  · exact steady.fails
  · split
    · exact steady.fails
    · exact (steady.temporary mapped.2).bind fun slot _ _ _ homes =>
        steady.lowerFields span lowers 0 _ homes

theorem lowerElements {arrayTy elemTy : Ty} {slot : Value} (position : Nat) {elems : List ExprId}
    (lowers : ∀ elem ∈ elems, pairing.Lowers walk (walk.swap twin) scope elem)
    (homes : pairing.Homes context.work context'.work slot arrayTy)
    (admits : pairing.Admits context.work context'.work elemTy) :
    pairing.Agrees scope (lowerElements walk arrayTy elemTy slot position elems)
      (lowerElements (walk.swap twin) arrayTy elemTy slot position elems) context context'
      pairing.Yields := by
  induction elems generalizing context context' position with
  | nil => exact steady.load homes
  | cons elem rest inductionHypothesis =>
    refine steady.withValue (lowers elem List.mem_cons_self) fun value _ _ later sound => ?_
    refine (steady.storeElement (homes.later later) (steady.elementIndices position)
      (later _ admits) sound).bind fun _ _ _ later' _ => ?_
    exact inductionHypothesis (position + 1)
      (fun elem member => lowers elem (List.mem_cons_of_mem _ member))
      ((homes.later later).later later') (later' _ (later _ admits))

theorem lowerArray {elems : List ExprId}
    (lowers : ∀ elem ∈ elems, pairing.Lowers walk (walk.swap twin) scope elem) (ty : TypeId)
    (span : Span) :
    pairing.Agrees scope (lowerArray walk elems ty span) (lowerArray (walk.swap twin) elems ty span)
      context context' pairing.Yields := by
  refine (steady.lowerType ty).bind fun arrayTy _ _ _ mapped => ?_
  split
  · exact (steady.temporary mapped.2).bind fun slot _ _ later homes =>
      steady.lowerElements 0 lowers homes (later _ (steady.elements mapped.2))
  · exact steady.fails

/-! ### Operators, conversions and calls -/

theorem lowerUnary (op : UnaryOp) {operand : ExprId}
    (lowers : pairing.Lowers walk (walk.swap twin) scope operand) :
    pairing.Agrees scope (lowerUnary walk op operand) (lowerUnary (walk.swap twin) op operand)
      context context' pairing.Yields :=
  steady.withValue lowers fun _ _ _ _ sound => steady.computes trivial
    (reads (List.forall_mem_singleton.2 sound) nofun) (steady.types sound)

theorem lowerCast {operand : ExprId} (lowers : pairing.Lowers walk (walk.swap twin) scope operand)
    (ty : TypeId) (span : Span) :
    pairing.Agrees scope (lowerCast walk operand ty span) (lowerCast (walk.swap twin) operand ty span)
      context context' pairing.Yields := by
  refine steady.withValue lowers fun value _ _ _ sound => ?_
  refine (steady.lowerType ty).bind fun wanted _ _ later mapped => ?_
  split
  · exact .pure ⟨rfl, later _ sound⟩
  · split
    · exact steady.computes trivial
        (reads (List.forall_mem_singleton.2 (later _ sound)) nofun) mapped.2
    · exact steady.fails

theorem calledFunction {name : Name} (span : Span) (looked : pairing.looksUp scope name) :
    pairing.Matches scope (calledFunction walk name span) (calledFunction (walk.swap twin) name span)
      context context' fun func func' _ _ => pairing.callee func func' := by
  refine Matches.read.bind ?_
  rintro _ _ context context' - ⟨rfl, rfl, rfl, rfl, rules⟩
  rw [rules.env]
  split
  · exact steady.fails
  · refine Matches.read.bind ?_
    rintro _ _ context context' - ⟨rfl, rfl, rfl, rfl, rules⟩
    rw [rules.here, rules.here']
    cases resolved : walk.program.scopes.resolve? scope name .value with
    | none => exact steady.fails
    | some symbol =>
    cases symbol with
    | function link ty => exact steady.symbols looked resolved
    | _ => exact steady.fails

theorem lowerArgs {callee : Value} {ret : Ty} (done : List Value) {args : List ExprId}
    (lowers : ∀ arg ∈ args, pairing.Lowers walk (walk.swap twin) scope arg)
    (called : ∃ name params, callee = .global name (.func params ret))
    (operands : ∀ value ∈ callee :: done, pairing.Yields value context context')
    (admits : pairing.Admits context.work context'.work ret) :
    pairing.Agrees scope (lowerArgs walk callee ret done args)
      (lowerArgs (walk.swap twin) callee ret done args) context context' pairing.Yields := by
  induction args generalizing context context' done with
  | nil =>
    refine steady.computes called (reads (fun value member => operands value ?_) nofun) admits
    rcases List.mem_cons.1 member with rfl | member
    · exact List.mem_cons_self
    · exact List.mem_cons_of_mem _ (List.mem_reverse.1 member)
  | cons arg rest inductionHypothesis =>
    refine steady.withValue (lowers arg List.mem_cons_self) fun value _ _ later sound => ?_
    refine inductionHypothesis _ (fun arg member => lowers arg (List.mem_cons_of_mem _ member))
      ?_ (later _ admits)
    have earlier := fun other member => later other (operands other member)
    rw [List.forall_mem_cons] at earlier
    exact List.forall_mem_cons.2 ⟨earlier.1, List.forall_mem_cons.2 ⟨sound, earlier.2⟩⟩

theorem lowerCall {callee : ExprId} {args : List ExprId}
    (lowers : pairing.Lowers walk (walk.swap twin) scope callee)
    (lowers' : ∀ arg ∈ args, pairing.Lowers walk (walk.swap twin) scope arg) (span : Span) :
    pairing.Agrees scope (lowerCall walk callee args span)
      (lowerCall (walk.swap twin) callee args span) context context' pairing.Yields := by
  refine (steady.node lowers.same).bind ?_
  rintro ⟨kind, nodeSpan, ty⟩ _ _ - ⟨found, rfl, rfl⟩
  cases kind with
  | path segments =>
    refine (steady.singleName segments span).bind ?_
    rintro name _ _ - ⟨rfl, rfl, rfl⟩
    refine (steady.calledFunction span (lowers.lookedUp name nodeSpan ty found)).bind
      fun func func' first first' _ callee => ?_
    refine (steady.functionRef callee).bind
      fun operand second second' _ ⟨here, _, refers, yields⟩ => ?_
    refine (steady.getFunction callee).bind
      fun function function' _ _ later ⟨got, signature, admits⟩ => ?_
    rw [here] at got
    rw [(Ty.func.inj signature).2]
    exact steady.lowerArgs [] lowers' ⟨_, _, refers function got⟩
      (List.forall_mem_singleton.2 (later _ yields)) admits
  | _ => exact steady.fails

/-! ### Assignments and borrows -/

theorem lowerAssign {target value : ExprId}
    (lowers : pairing.Lowers walk (walk.swap twin) scope target)
    (lowers' : pairing.Lowers walk (walk.swap twin) scope value) (span : Span) :
    pairing.Agrees scope (lowerAssign walk target value span)
      (lowerAssign (walk.swap twin) target value span) context context' pairing.Yields := by
  refine lowers.target span fun place _ _ placed => ?_
  refine steady.withValue lowers' fun value _ _ later sound => ?_
  exact (steady.store (placed.later later) sound).bind fun _ after after' _ _ =>
    .pure ⟨rfl, steady.yields_unit after after'⟩

theorem lowerCompound (op : BinaryOp) {target value : ExprId}
    (lowers : pairing.Lowers walk (walk.swap twin) scope target)
    (lowers' : pairing.Lowers walk (walk.swap twin) scope value) (span : Span) :
    pairing.Agrees scope (lowerCompound walk op target value span)
      (lowerCompound (walk.swap twin) op target value span) context context' pairing.Yields := by
  refine lowers.target span fun place _ _ placed => ?_
  refine (steady.loadPlace placed).bind fun current _ _ loaded sound => ?_
  refine steady.withValue lowers' fun value _ _ later sound' => ?_
  refine (steady.emitBinary op span (later _ sound) sound').bind
    fun combined _ _ computed sound'' => ?_
  have placed' := ((placed.later loaded).later later).later computed
  exact (steady.store placed' sound'').bind fun _ after after' _ _ =>
    .pure ⟨rfl, steady.yields_unit after after'⟩

theorem lowerBorrow (mutable : Bool) {operand : ExprId}
    (lowers : pairing.Lowers walk (walk.swap twin) scope operand) (span : Span)
    (addressed : pairing.Addressed walk.program.arena operand) :
    pairing.Agrees scope (lowerBorrow walk mutable operand span)
      (lowerBorrow (walk.swap twin) mutable operand span) context context' pairing.Yields := by
  refine steady.thenLive (lowers.place addressed context context') (fun place _ _ _ placed => ?_)
    steady.yields_unreachable
  split
  · exact steady.fails
  · dsimp only
    split
    · exact .pure placed.address
    · exact steady.computes trivial (reads (List.forall_mem_singleton.2 placed.address) nofun)
        (steady.pointers.2 placed.content)

/-! ### Branches -/

theorem lowerShortCircuit (isAnd : Bool) {left right : ExprId}
    (lowers : pairing.Lowers walk (walk.swap twin) scope left)
    (lowers' : pairing.Lowers walk (walk.swap twin) scope right) (span : Span) :
    pairing.Agrees scope (lowerShortCircuit walk isAnd left right span)
      (lowerShortCircuit (walk.swap twin) isAnd left right span) context context'
      pairing.Yields := by
  refine steady.withValue lowers fun left _ _ _ sound => ?_
  refine (steady.expectBool left span).bind fun _ _ _ later bool => ?_
  refine steady.currentFunction.bind fun func func' _ _ later' mine => ?_
  refine (steady.temporary (steady.prims .bool)).bind fun slot _ _ later'' homes => ?_
  have sound' := later'' _ (later' _ (later _ sound))
  refine (steady.store homes sound').bind fun _ _ _ stored _ => ?_
  refine steady.newBlock.bind fun rightBlock _ _ opened _ => ?_
  refine steady.newBlock.bind fun merge _ _ opened' _ => ?_
  have branched : ∀ context context', pairing.sound context.work context'.work left →
      pairing.Agrees scope (build (shortCircuitBranch isAnd left rightBlock merge))
        (build (shortCircuitBranch isAnd left rightBlock merge)) context context'
        fun _ _ _ => True := by
    intro context context' sound
    unfold shortCircuitBranch
    split <;> exact steady.branch bool sound
  refine (branched _ _ (opened' _ (opened _ (stored _ sound')))).bind
    fun _ _ _ branched _ => ?_
  refine (steady.positionAt mine).bind fun _ _ _ moved _ => ?_
  refine (lowers'.expr _ _).bind fun right _ _ lowered sound'' => ?_
  refine steady.isLive.bind ?_
  rintro live _ _ - ⟨rfl, rfl, rfl⟩
  have homes' := ((((homes.later stored).later opened).later opened').later branched).later moved
  have ended : ∀ {context context'}, pairing.Homes context.work context'.work slot .bool →
      pairing.Agrees scope
        (do build (Build.positionAt func merge); build (Build.load slot .bool))
        (do build (Build.positionAt func' merge); build (Build.load slot .bool)) context context'
        pairing.Yields := fun homes =>
    (steady.positionAt mine).bind fun _ _ _ later _ => steady.load (homes.later later)
  split
  · refine (steady.store (homes'.later lowered) sound'').bind fun _ _ _ stored' _ => ?_
    refine steady.jump.bind fun _ _ _ jumped _ => ?_
    exact ended (((homes'.later lowered).later stored').later jumped)
  · exact ended (homes'.later lowered)

theorem lowerBinary (op : BinaryOp) {left right : ExprId}
    (lowers : pairing.Lowers walk (walk.swap twin) scope left)
    (lowers' : pairing.Lowers walk (walk.swap twin) scope right) (span : Span) :
    pairing.Agrees scope (lowerBinary walk op left right span)
      (lowerBinary (walk.swap twin) op left right span) context context' pairing.Yields := by
  unfold Lowering.lowerBinary
  split
  · exact steady.lowerShortCircuit _ lowers lowers' span
  · refine steady.withValue lowers fun left _ _ _ sound => ?_
    refine steady.withValue lowers' fun right _ _ later sound' => ?_
    exact steady.emitBinary op span (later _ sound) sound'

theorem lowerWhen {test : Value} {func func' : FuncId} {thenBlock : BlockId} {thenArm : ExprId}
    (lowers : pairing.Lowers walk (walk.swap twin) scope thenArm)
    (mine : pairing.mine func func') (bool : test.ty = .bool)
    (sound : pairing.sound context.work context'.work test) :
    pairing.Agrees scope (lowerWhen walk test func thenBlock thenArm)
      (lowerWhen (walk.swap twin) test func' thenBlock thenArm) context context'
      pairing.Yields := by
  refine steady.newBlock.bind fun merge _ _ opened _ => ?_
  refine (steady.branch bool (opened _ sound)).bind fun _ _ _ _ _ => ?_
  refine (steady.positionAt mine).bind fun _ _ _ _ _ => ?_
  refine (lowers.expr _ _).bind fun _ _ _ _ _ => ?_
  refine steady.isLive.bind ?_
  rintro live _ _ - ⟨rfl, rfl, rfl⟩
  have ended : ∀ {context context'}, pairing.Agrees scope
      (do build (Build.positionAt func merge); return .unit)
      (do build (Build.positionAt func' merge); return .unit) context context'
      pairing.Yields :=
    (steady.positionAt mine).bind fun _ after after' _ _ =>
      .pure ⟨rfl, steady.yields_unit after after'⟩
  split
  · exact steady.jump.bind fun _ _ _ _ _ => ended
  · exact ended

theorem lowerArm {func func' : FuncId} {block : BlockId} {arm : ExprId}
    (lowers : pairing.Lowers walk (walk.swap twin) scope arm) (mine : pairing.mine func func') :
    pairing.Agrees scope (lowerArm walk func block arm) (lowerArm (walk.swap twin) func' block arm)
      context context' fun result after after' => pairing.Arrives result.toList after after' := by
  refine (steady.positionAt mine).bind fun _ _ _ _ _ => ?_
  refine (lowers.expr _ _).bind fun value _ _ _ sound => ?_
  refine Matches.read.bind ?_
  rintro _ _ after after' - ⟨rfl, rfl, rfl, rfl, rules⟩
  have blocks := steady.cursors rules.holds
  refine .pure ⟨?_, fun pair member => ?_⟩
  · change after'.builder.cursor.map Cursor.block = after.builder.cursor.map Cursor.block at blocks
    have paired : ∀ cursor : Option Cursor, (cursor.map fun cursor => (value, cursor.block)) =
        (cursor.map Cursor.block).map fun block => (value, block) := by
      intro cursor
      cases cursor <;> rfl
    rw [paired, paired, blocks]
  · obtain ⟨cursor, _, rfl⟩ := Option.map_eq_some_iff.1 (Option.mem_toList.1 member)
    exact sound

theorem jumpFrom {func func' : FuncId} {merge : BlockId} (mine : pairing.mine func func')
    (arm : Value × BlockId) :
    pairing.Agrees scope (jumpFrom func merge arm) (jumpFrom func' merge arm) context context'
      fun _ _ _ => True :=
  (steady.positionAt mine).bind fun _ _ _ _ _ => steady.jump

theorem joinArms {func func' : FuncId} {ty : TypeId} {incoming : List (Value × BlockId)}
    (mine : pairing.mine func func') (arrives : pairing.Arrives incoming context context') :
    pairing.Agrees scope (joinArms walk func ty incoming)
      (joinArms (walk.swap twin) func' ty incoming) context context' pairing.Yields := by
  unfold Lowering.joinArms
  split
  · exact .pure (steady.yields_unreachable _ _)
  · refine steady.newBlock.bind fun merge _ _ opened _ => ?_
    refine (Agrees.forM fun arm _ _ _ => steady.jumpFrom mine arm).bind fun _ _ _ jumped _ => ?_
    refine (steady.positionAt mine).bind fun _ _ _ moved _ => ?_
    refine (steady.lowerType ty).bind fun found _ _ later mapped => ?_
    have yields : ∀ arm ∈ incoming, pairing.Yields (retype found arm.1) _ _ := fun arm listed =>
      Yields.retype (later _ (moved _ (jumped _ (opened _ (arrives arm listed))))) mapped.2
    split
    · exact .pure ⟨rfl, steady.yields_unit _ _⟩
    · unfold mergeValue
      split
      · next value block same =>
        -- the only value that arrives is one of those that came in
        have member : (value, block) ∈ incoming.map fun arm => (retype found arm.1, arm.2) := by
          rw [same]
          exact List.mem_cons_self
        obtain ⟨arm, listed, here⟩ := List.mem_map.1 member
        cases here
        exact .pure ⟨rfl, yields arm listed⟩
      · refine steady.computes trivial (reads (fun value member => ?_) nofun) mapped.2
        simp only [Operation.operands, List.map_map, List.mem_map] at member
        obtain ⟨arm, listed, rfl⟩ := member
        exact yields arm listed

theorem lowerCond {test thenArm : ExprId} {elseArm : Option ExprId} (ty : TypeId) (span : Span)
    (lowers : ∀ part ∈ ExprKind.children (.cond test thenArm elseArm),
      pairing.Lowers walk (walk.swap twin) scope part) :
    pairing.Agrees scope (lowerCond walk test thenArm elseArm ty span)
      (lowerCond (walk.swap twin) test thenArm elseArm ty span) context context'
      pairing.Yields := by
  refine steady.withValue (lowers test List.mem_cons_self) fun value _ _ _ sound => ?_
  refine (steady.expectBool value span).bind fun _ _ _ expected bool => ?_
  refine steady.currentFunction.bind fun func func' _ _ asked mine => ?_
  refine steady.newBlock.bind fun thenBlock _ _ opened _ => ?_
  have sound' := opened _ (asked _ (expected _ sound))
  have lowersThen := lowers thenArm (List.mem_cons_of_mem _ List.mem_cons_self)
  cases elseArm with
  | none => exact steady.lowerWhen lowersThen mine bool sound'
  | some elseArm =>
    have lowersElse := lowers elseArm (by simp [ExprKind.children])
    refine steady.newBlock.bind fun elseBlock _ _ opened' _ => ?_
    refine (steady.branch bool (opened' _ sound')).bind fun _ _ _ _ _ => ?_
    refine (steady.lowerArm lowersThen mine).bind fun first _ _ _ arrives => ?_
    refine (steady.lowerArm lowersElse mine).bind fun second _ _ later arrives' => ?_
    refine steady.joinArms mine fun arm member => ?_
    rcases List.mem_append.1 member with earlier | last
    · exact later _ (arrives arm earlier)
    · exact arrives' arm last

/-! ### Loops and returns -/

theorem lowerLoopBody {func func' : FuncId} {block : BlockId} {targets : LoopTargets}
    {body : ExprId} (lowers : pairing.Lowers walk (walk.swap twin) scope body)
    (mine : pairing.mine func func') :
    pairing.Agrees scope (lowerLoopBody walk func block targets body)
      (lowerLoopBody (walk.swap twin) func' block targets body) context context'
      fun _ _ _ => True := by
  refine (steady.positionAt mine).bind fun _ _ _ _ _ => ?_
  refine (Agrees.inLoop (fun value work work' => pairing.sound work work' value)
    (lowers.expr _ _)).bind fun _ _ _ _ _ => ?_
  refine steady.isLive.bind ?_
  rintro live _ _ - ⟨rfl, rfl, rfl⟩
  split
  · exact steady.jump
  · exact .pure ⟨rfl, trivial⟩

theorem lowerWhile {test body : ExprId}
    (lowers : pairing.Lowers walk (walk.swap twin) scope test)
    (lowers' : pairing.Lowers walk (walk.swap twin) scope body) (span : Span) :
    pairing.Agrees scope (lowerWhile walk test body span)
      (lowerWhile (walk.swap twin) test body span) context context' pairing.Yields := by
  refine steady.currentFunction.bind fun func func' _ _ _ mine => ?_
  refine steady.newBlock.bind fun testBlock _ _ _ _ => ?_
  refine steady.jump.bind fun _ _ _ _ _ => ?_
  refine (steady.positionAt mine).bind fun _ _ _ _ _ => ?_
  refine steady.withValue lowers fun value _ _ _ sound => ?_
  refine (steady.expectBool value span).bind fun _ _ _ expected bool => ?_
  refine steady.newBlock.bind fun bodyBlock _ _ opened _ => ?_
  refine steady.newBlock.bind fun exit _ _ opened' _ => ?_
  refine (steady.branch bool (opened' _ (opened _ (expected _ sound)))).bind fun _ _ _ _ _ => ?_
  refine (steady.lowerLoopBody lowers' mine).bind fun _ _ _ _ _ => ?_
  exact (steady.positionAt mine).bind fun _ after after' _ _ =>
    .pure ⟨rfl, steady.yields_unit after after'⟩

theorem lowerLoop {body : ExprId} (lowers : pairing.Lowers walk (walk.swap twin) scope body)
    (ty : TypeId) :
    pairing.Agrees scope (lowerLoop walk body ty) (lowerLoop (walk.swap twin) body ty) context
      context' pairing.Yields := by
  refine steady.currentFunction.bind fun func func' _ _ _ mine => ?_
  refine steady.newBlock.bind fun bodyBlock _ _ _ _ => ?_
  refine steady.newBlock.bind fun exit _ _ _ _ => ?_
  refine steady.jump.bind fun _ _ _ _ _ => ?_
  refine (steady.lowerLoopBody lowers mine).bind fun _ _ _ _ _ => ?_
  refine (steady.positionAt mine).bind fun _ after after' _ _ => .pure ⟨rfl, ?_⟩
  split
  · exact steady.yields_unreachable after after'
  · exact steady.yields_unit after after'

theorem lowerReturn {value : Option ExprId} (span : Span)
    (lowers : ∀ part ∈ value, pairing.Lowers walk (walk.swap twin) scope part) :
    pairing.Agrees scope (lowerReturn walk value span) (lowerReturn (walk.swap twin) value span)
      context context' pairing.Yields := by
  refine Matches.get.bind ?_
  rintro _ _ context context' - ⟨rfl, rfl, rfl, rfl, rules⟩
  rw [rules.env]
  split
  · exact steady.fails
  · next ret found =>
    cases value with
    | none =>
      exact (steady.ret (by simp)).bind fun _ after after' _ _ =>
        .pure ⟨rfl, steady.yields_unreachable after after'⟩
    | some part =>
      exact steady.withValue (lowers part rfl) fun value _ _ _ sound =>
        (steady.ret (returned sound)).bind fun _ after after' _ _ =>
          .pure ⟨rfl, steady.yields_unreachable after after'⟩

end Constructs

end Steady

end Pairing

end TreeLowering.Lowering
