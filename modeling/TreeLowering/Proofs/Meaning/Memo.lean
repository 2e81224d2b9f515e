/-
This file proves that primitive types are mapped to themselves. The mapping looks into its memory
first, so the memory must be right about primitive types; mapping any type keeps it right.
-/

import TreeLowering.Proofs.Flow.Declare
import TreeLowering.Proofs.Types.Recall

namespace TreeLowering.Lowering

open TreeLowering.Ir TreeLowering.Tree

/-- The memory is right about primitive types. -/
def TypeMemo.Sound (source : Source) (memo : TypeMemo) : Prop :=
  ∀ ty mapped prim, memo.known.lookup ty = some mapped → source.program.prim? ty = some prim →
    mapped = .prim prim

variable {source : Source} {context : Context}

theorem TypeMemo.Sound.remember {memo : TypeMemo} (sound : memo.Sound source) {ty : TypeId}
    {mapped : Ty} (right : ∀ prim, source.program.prim? ty = some prim → mapped = .prim prim) :
    TypeMemo.Sound source { memo with known := (ty, mapped) :: memo.known } := by
  intro other mapped' prim found typed
  rw [List.lookup_cons] at found
  by_cases same : other = ty
  · subst same
    rw [beq_self_eq_true] at found
    cases found
    exact right prim typed
  · rw [beq_false_of_ne same] at found
    exact sound other mapped' prim found typed

/-- A primitive type is mapped to itself, and nothing is declared. -/
theorem ensures_lowerType_prim {ty : TypeId} {prim : Prim} (sound : context.memo.Sound source)
    (typed : source.program.prim? ty = some prim) :
    Ensures (lowerType source ty) context fun mapped after => mapped = .prim prim ∧
      after.memo.Sound source ∧ after = { context with memo := after.memo } := by
  unfold lowerType mapType
  rw [ensures_mapping]
  obtain ⟨depth, deep⟩ : ∃ depth, source.typeDepth = depth + 1 :=
    Nat.exists_eq_succ_of_ne_zero (Nat.mul_ne_zero (by omega) (by omega))
  rw [deep, mapTypeWithin, ensures_bind, ensures_get]
  cases found : context.memo.known.lookup ty with
  | some mapped => exact ⟨sound ty mapped prim found typed, sound, rfl⟩
  | none =>
    have primitive : (source.program.types.kind ty).prim? = some prim := typed
    dsimp only
    split
    · next definition kind =>
      rw [kind] at primitive
      cases primitive
    · rw [mapShape_primitive (TypeKind.primitive?_of_prim? primitive)]
      refine ⟨rfl, sound.remember fun prim' typed' => ?_, rfl⟩
      cases typed.symm.trans typed'
      rfl

/-! ### All types -/

/-- Mapping any type keeps the memory right. -/
theorem ensures_mapType_sound {state : TypeState} (sound : state.memo.Sound source) (ty : TypeId) :
    Ensures (mapType source ty) state fun _ after => after.memo.Sound source := by
  have mindful : Mindful source (TypeMemo.Sound source) fun cause => cause.isMisstep = false :=
    ⟨fun sound right => sound.remember fun prim typed =>
      right prim (TypeKind.primitive?_of_prim? typed), fun _ => id, rfl, fun _ => rfl⟩
  exact mindful.heeds_mapType ty state sound

end TreeLowering.Lowering
