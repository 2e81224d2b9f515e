/-
This file compares two programs that differ in their expressions and items only. Whatever looks at
types, scopes and names alone, does the same in both. Two nodes differ in nothing that matters when
they are struct literals with the same initialisers in another order.
-/

import TreeLowering.Proofs.Types.Formed

namespace TreeLowering.Tree

/-! ### Nodes -/

/-- A search by key does not depend on the order, as long as no key stands twice. -/
theorem find?_of_perm {α β : Type} [BEq β] [LawfulBEq β] (key : α → β) {items items' : List α}
    (same : items'.Perm items) (apart : (items.map key).Nodup) (wanted : β) :
    items'.find? (fun item => key item == wanted) = items.find? fun item => key item == wanted := by
  cases found : items.find? fun item => key item == wanted with
  | none =>
    rw [List.find?_eq_none] at found ⊢
    exact fun item member => found item (same.mem_iff.1 member)
  | some item =>
    have listed := List.mem_of_find?_eq_some found
    have named := List.find?_some found
    cases found' : items'.find? fun item => key item == wanted with
    | none => exact absurd named (List.find?_eq_none.1 found' item (same.mem_iff.2 listed))
    | some item' =>
      have listed' := same.mem_iff.1 (List.mem_of_find?_eq_some found')
      have named' := List.find?_some found'
      rw [beq_iff_eq] at named named'
      rw [List.inj_on_of_nodup_map apart listed' listed (named'.trans named.symm)]

/-- The initialisers of a struct literal name different fields of its struct. -/
structure FieldInits (pool : TypePool) (ty : TypeId) (inits : List FieldInit) : Prop where
  declared : ∀ definition ∈ pool.structDef? ty, ∀ init ∈ inits,
    (definition.fieldIndex? init.name).isSome = true
  apart : (inits.map FieldInit.name).Nodup

/-- No initialiser is astray, whatever the order. -/
theorem FieldInits.find?_stray {pool : TypePool} {ty : TypeId} {inits inits' : List FieldInit}
    (named : FieldInits pool ty inits) (perm : inits'.Perm inits) {definition : StructDef}
    (known : pool.structDef? ty = some definition) :
    (inits'.find? fun init => (definition.fieldIndex? init.name).isNone) =
      inits.find? fun init => (definition.fieldIndex? init.name).isNone := by
  have none : ∀ list : List FieldInit, (∀ init ∈ list, init ∈ inits) →
      (list.find? fun init => (definition.fieldIndex? init.name).isNone) = none := by
    intro list inside
    refine List.find?_eq_none.2 fun init member stray => ?_
    have declared := named.declared definition known init (inside init member)
    rw [Option.isNone_iff_eq_none.1 stray] at declared
    cases declared
  rw [none inits' fun init => perm.mem_iff.1, none inits fun _ => id]

/-- In the same place of two programs there is the same node, or a struct literal with the same
initialisers. -/
inductive Reordered (pool : TypePool) : Option Node → Option Node → Prop
  | same (node : Option Node) : Reordered pool node node
  | structLit {inits inits' : List FieldInit} {span : Span} {ty : TypeId}
      (named : FieldInits pool ty inits) (perm : inits'.Perm inits) :
      Reordered pool (some ⟨.structLit inits, span, ty⟩) (some ⟨.structLit inits', span, ty⟩)

namespace Reordered

variable {pool : TypePool} {node node' : Option Node}

theorem symm (reordered : Reordered pool node node') : Reordered pool node' node := by
  cases reordered with
  | same => exact .same _
  | structLit named perm =>
    exact .structLit ⟨fun definition known init member =>
      named.declared definition known init (perm.mem_iff.1 member),
      (perm.map FieldInit.name).nodup_iff.2 named.apart⟩ perm.symm

theorem same_or_structLit (reordered : Reordered pool node node') :
    node' = node ∨ ∃ inits inits' span ty, node = some ⟨.structLit inits, span, ty⟩ ∧
      node' = some ⟨.structLit inits', span, ty⟩ ∧ FieldInits pool ty inits ∧
        inits'.Perm inits := by
  cases reordered with
  | same => exact .inl rfl
  | structLit named perm => exact .inr ⟨_, _, _, _, rfl, rfl, named, perm⟩

/-- Both nodes have the same parts. -/
theorem children (reordered : Reordered pool node node') {found found' : Node}
    (stored : node = some found) (stored' : node' = some found') {part : ExprId} :
    part ∈ found'.kind.children ↔ part ∈ found.kind.children := by
  cases reordered with
  | same =>
    cases stored.symm.trans stored'
    exact Iff.rfl
  | structLit named perm =>
    cases stored
    cases stored'
    exact (perm.map FieldInit.value).mem_iff

end Reordered

end TreeLowering.Tree

namespace TreeLowering.Lowering

open TreeLowering.Ir TreeLowering.Tree

/-- Both programs have the same types, scopes and names. -/
structure Source.SameTables (source source' : Source) : Prop where
  types : source'.program.types = source.program.types
  scopes : source'.program.scopes = source.program.scopes
  names : source'.names = source.names

namespace Source.SameTables

variable {source source' : Source}

theorem refl (source : Source) : source.SameTables source := ⟨rfl, rfl, rfl⟩

variable (same : source.SameTables source')

include same

/-! ### Types -/

theorem mapTypeWithin (fuel : Nat) :
    mapTypeWithin source' fuel = Lowering.mapTypeWithin source fuel := by
  induction fuel with
  | zero => rfl
  | succ fuel inductionHypothesis =>
    funext ty
    simp only [Lowering.mapTypeWithin, inductionHypothesis, mapStruct, mapShape, same.types,
      same.names]

theorem mapType (ty : TypeId) : mapType source' ty = Lowering.mapType source ty := by
  unfold Lowering.mapType Source.typeDepth
  rw [same.mapTypeWithin, same.types]

theorem lowerType : lowerType source' = Lowering.lowerType source := by
  funext ty
  unfold Lowering.lowerType
  rw [same.mapType]

/-! ### Declarations -/

theorem declareFn (decl : FunctionDecl) : declareFn source' decl = Lowering.declareFn source decl := by
  unfold Lowering.declareFn
  rw [same.lowerType, same.names]

theorem declareItem (item : Item) :
    declareItem source' item = Lowering.declareItem source item := by
  unfold Lowering.declareItem declareConst
  rw [same.lowerType, same.names]

theorem functionForSymbol (link : Name) (ty : TypeId) (span : Span) :
    functionForSymbol source' link ty span = Lowering.functionForSymbol source link ty span := by
  unfold Lowering.functionForSymbol
  rw [same.lowerType, same.names, same.types]

/-! ### Names -/

theorem resolveSymbol? (name : Name) (nameClass : NameClass) :
    resolveSymbol? source' name nameClass = Lowering.resolveSymbol? source name nameClass := by
  unfold Lowering.resolveSymbol?
  rw [same.scopes]

theorem globalPlace (name : Name) (span : Span) :
    globalPlace source' name span = Lowering.globalPlace source name span := by
  unfold Lowering.globalPlace
  rw [same.resolveSymbol?, same.lowerType, same.names]

theorem lowerInt (value : UInt64) (ty : TypeId) :
    lowerInt source' value ty = Lowering.lowerInt source value ty := by
  unfold Lowering.lowerInt
  rw [same.lowerType]

end Source.SameTables

/-! ### Walks -/

namespace Source.SameTables

variable {walk walk' : Walk} (same : walk.toSource.SameTables walk'.toSource)

include same

theorem text (name : Name) : walk'.text name = walk.text name :=
  congrArg (fun names : NameTable => names.text name) same.names

theorem singleName (segments : List Name) (span : Span) :
    walk'.singleName segments span = walk.singleName segments span := by
  have texts : walk'.text = walk.text := funext same.text
  unfold Walk.singleName
  rw [texts]

theorem pathPlace (segments : List Name) (span : Span) :
    pathPlace walk' segments span = Lowering.pathPlace walk segments span := by
  unfold Lowering.pathPlace
  simp only [same.singleName, same.text, same.globalPlace]

theorem lowerPath (segments : List Name) (span : Span) :
    lowerPath walk' segments span = Lowering.lowerPath walk segments span := by
  unfold Lowering.lowerPath
  simp only [same.singleName, same.resolveSymbol?, same.functionForSymbol, same.globalPlace]

omit same in
/-- The type of an expression does not depend on the order of initialisers. -/
theorem typeOf {pool : TypePool} {part : ExprId}
    (stored : Reordered pool (walk.program.arena.get? part) (walk'.program.arena.get? part)) :
    walk'.typeOf part = walk.typeOf part := by
  unfold Walk.typeOf Walk.node
  generalize walk.program.arena.get? part = node at stored
  generalize walk'.program.arena.get? part = node' at stored
  cases stored <;> rfl

theorem bindSlot {pool : TypePool} {init : Option ExprId}
    (stored : ∀ part ∈ init,
      Reordered pool (walk.program.arena.get? part) (walk'.program.arena.get? part))
    (name : Name) (mutable : Bool) (ty : TypeId) (value : Option Value) :
    bindSlot walk' name mutable ty init value =
      Lowering.bindSlot walk name mutable ty init value := by
  have typed : slotType walk' ty init = slotType walk ty init := by
    unfold slotType
    cases init with
    | none => rfl
    | some part =>
      dsimp only
      rw [typeOf (stored part rfl)]
  unfold Lowering.bindSlot
  rw [typed, same.lowerType, same.text]

theorem calledFunction (name : Name) (span : Span) :
    calledFunction walk' name span = Lowering.calledFunction walk name span := by
  unfold Lowering.calledFunction
  simp only [same.text, same.resolveSymbol?, same.functionForSymbol]

end Source.SameTables

end TreeLowering.Lowering
