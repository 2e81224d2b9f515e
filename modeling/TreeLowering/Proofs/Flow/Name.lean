/-
This file proves that numbered texts can be told apart. The number behind the last dot of a text
can be read back, so no two labels of a function are the same, and the search for the name of a
slot always ends at one that is not in use.
-/

import TreeLowering.Lowering.Build.Name

namespace TreeLowering.Lowering

theorem toDigits_injective {first second : Nat}
    (same : Nat.toDigits 10 first = Nat.toDigits 10 second) : first = second := by
  rw [← Nat.ofDigitChars_toDigits (b := 10) (n := first) (by decide) (by decide), same,
    Nat.ofDigitChars_toDigits (by decide) (by decide)]

theorem dot_not_mem_toDigits (number : Nat) : '.' ∉ Nat.toDigits 10 number := fun member =>
  absurd (Nat.isDigit_of_mem_toDigits (by decide) (by decide) member) (by decide)

/-- What follows the last mark of a list is determined. -/
theorem rest_unique {α : Type} {mark : α} {before before' rest rest' : List α}
    (unmarked : mark ∉ rest) (unmarked' : mark ∉ rest')
    (same : before ++ mark :: rest = before' ++ mark :: rest') : rest = rest' := by
  rcases List.append_eq_append_iff.1 same with ⟨between, _, split⟩ | ⟨between, _, split⟩
  · cases between with
    | nil => exact (List.cons.inj split).2
    | cons first between =>
      refine absurd ?_ unmarked
      rw [(List.cons.inj split).2]
      exact List.mem_append_right _ List.mem_cons_self
  · cases between with
    | nil => exact (List.cons.inj split).2.symm
    | cons first between =>
      refine absurd ?_ unmarked'
      rw [(List.cons.inj split).2]
      exact List.mem_append_right _ List.mem_cons_self

theorem numbered_toList (hint : String) (number : Nat) :
    (hint ++ "." ++ toString number).toList = hint.toList ++ '.' :: Nat.toDigits 10 number := by
  simp [String.toList_append]

/-- The number at the end of a text can be read back. -/
theorem numbered_injective {hint hint' : String} {number number' : Nat}
    (same : hint ++ "." ++ toString number = hint' ++ "." ++ toString number') :
    number = number' := by
  rw [← String.toList_inj, numbered_toList, numbered_toList] at same
  exact toDigits_injective
    (rest_unique (dot_not_mem_toDigits number) (dot_not_mem_toDigits number') same)

theorem numbered_ne {text : String} (plain : '.' ∉ text.toList) (hint : String) (number : Nat) :
    hint ++ "." ++ toString number ≠ text := by
  rintro rfl
  rw [numbered_toList] at plain
  exact plain (List.mem_append_right _ List.mem_cons_self)

namespace Builder

theorem candidate_injective {base : String} {first second : Nat}
    (same : candidate base first = candidate base second) : first = second := by
  have longer : ∀ number : Nat, base ++ "." ++ toString number ≠ base := fun number equal => by
    have length := congrArg (fun text => text.toList.length) equal
    simp only [numbered_toList, List.length_append, List.length_cons] at length
    omega
  cases first with
  | zero =>
    cases second with
    | zero => rfl
    | succ second => exact absurd same.symm (longer _)
  | succ first =>
    cases second with
    | zero => exact absurd same (longer _)
    | succ second => exact numbered_injective same

/-- A search that ends at a used name has found nothing but used names. -/
theorem used_of_firstFree {used : List String} {base : String} {fuel number : Nat}
    (taken : candidate base (firstFree used base fuel number) ∈ used) :
    ∀ offset ≤ fuel, candidate base (number + offset) ∈ used := by
  induction fuel generalizing number with
  | zero =>
    intro offset bound
    rw [Nat.le_zero.1 bound]
    exact taken
  | succ fuel inductionHypothesis =>
    rw [firstFree] at taken
    split at taken
    · next found =>
      intro offset bound
      cases offset with
      | zero => simpa using found
      | succ offset =>
        rw [show number + (offset + 1) = number + 1 + offset by omega]
        exact inductionHypothesis taken offset (Nat.le_of_succ_le_succ bound)
    · next missing =>
      exact absurd taken (by simpa using missing)

/-- The name that is found is not in use: there are more candidates than used names. -/
theorem freeNumber_not_mem (builder : Builder) (base : String) :
    candidate base (builder.freeNumber base) ∉ builder.usedNames := by
  intro taken
  have used := used_of_firstFree taken
  let candidates := (List.range (builder.usedNames.length + 1)).map fun offset =>
    candidate base ((builder.nextSuffix.lookup base).getD 0 + offset)
  have distinct : candidates.Nodup := by
    refine List.Pairwise.map _ (fun first second differs same => ?_) List.nodup_range
    have equal := candidate_injective same
    omega
  have inside : candidates ⊆ builder.usedNames := by
    intro text member
    obtain ⟨offset, bound, rfl⟩ := List.mem_map.1 member
    exact used offset (Nat.lt_succ_iff.1 (List.mem_range.1 bound))
  have bound := distinct.length_le_of_subset inside
  rw [List.length_map, List.length_range] at bound
  omega

end Builder

end TreeLowering.Lowering
