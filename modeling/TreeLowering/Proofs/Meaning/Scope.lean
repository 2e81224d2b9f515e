/-
This file relates two ways to say what names stand for. Both have the same scopes with the same names
in the same order, and what they say of one name is related. Binding, assigning and leaving a scope
are done on both sides at once.
-/

import TreeLowering.Proofs.Meaning.Evaluate
import Mathlib.Data.List.Forall2

namespace TreeLowering.Tree

namespace Scopes

variable {α β : Type} {relation relation' : α → β → Prop} {first : Scopes α} {second : Scopes β}
  {name : Name}

/-- The same names in one scope, and what they stand for is related. -/
def AgreeIn (relation : α → β → Prop) : List (Name × α) → List (Name × β) → Prop :=
  List.Forall₂ fun entry entry' => entry.1 = entry'.1 ∧ relation entry.2 entry'.2

/-- The same names in the same scopes, and what they stand for is related. -/
def Agree (relation : α → β → Prop) : Scopes α → Scopes β → Prop :=
  List.Forall₂ (AgreeIn relation)

theorem mem_of_resolve? {item : α} (found : first.resolve? name = some item) :
    (name, item) ∈ first.flatten := by
  obtain ⟨scope, member, found⟩ := List.exists_of_findSome?_eq_some found
  obtain ⟨before, after, split, _⟩ := List.lookup_eq_some_iff.1 found
  exact List.mem_flatten.2 ⟨scope, member, by rw [split]; simp⟩

theorem AgreeIn.lookup {scope : List (Name × α)} {scope' : List (Name × β)}
    (agree : AgreeIn relation scope scope') (name : Name) :
    scope.lookup name = none ∧ scope'.lookup name = none ∨ ∃ item item',
      scope.lookup name = some item ∧ scope'.lookup name = some item' ∧ relation item item' := by
  induction agree with
  | nil => exact Or.inl ⟨rfl, rfl⟩
  | @cons entry entry' rest rest' head tail inductionHypothesis =>
    obtain ⟨key, item⟩ := entry
    obtain ⟨key', item'⟩ := entry'
    obtain ⟨same, related⟩ := head
    dsimp only at same
    subst same
    rw [List.lookup_cons, List.lookup_cons]
    cases name == key with
    | true => exact Or.inr ⟨item, item', rfl, rfl, related⟩
    | false => exact inductionHypothesis

/-- A name is known on both sides or on none. -/
theorem Agree.resolve (agree : Agree relation first second) (name : Name) :
    first.resolve? name = none ∧ second.resolve? name = none ∨ ∃ item item',
      first.resolve? name = some item ∧ second.resolve? name = some item' ∧ relation item item' := by
  induction agree with
  | nil => exact Or.inl ⟨rfl, rfl⟩
  | @cons scope scope' outer outer' head tail inductionHypothesis =>
    unfold resolve?
    rw [List.findSome?_cons, List.findSome?_cons]
    rcases head.lookup name with ⟨missing, missing'⟩ | ⟨item, item', found, found', related⟩
    · rw [missing, missing']
      exact inductionHypothesis
    · rw [found, found']
      exact Or.inr ⟨item, item', rfl, rfl, related⟩

theorem Agree.found {item : α} (agree : Agree relation first second)
    (found : first.resolve? name = some item) :
    ∃ item', second.resolve? name = some item' ∧ relation item item' := by
  rcases agree.resolve name with ⟨missing, _⟩ | ⟨other, item', found', found'', related⟩
  · rw [missing] at found
    cases found
  · cases found.symm.trans found'
    exact ⟨item', found'', related⟩

theorem Agree.mono (agree : Agree relation first second)
    (weaker : ∀ item item', relation item item' → relation' item item') :
    Agree relation' first second :=
  List.Forall₂.imp (fun _ _ inner => List.Forall₂.imp (fun _ _ entry =>
    ⟨entry.1, weaker _ _ entry.2⟩) inner) agree

theorem AgreeIn.mem_right {scope : List (Name × α)} {scope' : List (Name × β)}
    (agree : AgreeIn relation scope scope') {entry : Name × β} (member : entry ∈ scope') :
    ∃ item, relation item entry.2 := by
  induction agree with
  | nil => cases member
  | cons head tail inductionHypothesis =>
    rcases List.mem_cons.1 member with rfl | member
    · exact ⟨_, head.2⟩
    · exact inductionHypothesis member

theorem Agree.mem_right (agree : Agree relation first second) {entry : Name × β}
    (member : entry ∈ second.flatten) : ∃ item, relation item entry.2 := by
  induction agree with
  | nil => cases member
  | cons head tail inductionHypothesis =>
    rcases List.mem_append.1 member with inside | outside
    · exact head.mem_right inside
    · exact inductionHypothesis outside

theorem Agree.bind {item : α} {item' : β} (agree : Agree relation first second)
    (related : relation item item') (name : Name) :
    Agree relation (first.bind name item) (second.bind name item') := by
  cases agree with
  | nil => exact .cons (.cons ⟨rfl, related⟩ .nil) .nil
  | cons head tail => exact .cons (.cons ⟨rfl, related⟩ head) tail

theorem Agree.enter (agree : Agree relation first second) :
    Agree relation ([] :: first) ([] :: second) := .cons .nil agree

theorem Agree.leave (agree : Agree relation first second) :
    Agree relation first.tail second.tail := by
  cases agree with
  | nil => exact .nil
  | cons head tail => exact tail

/-! ### Assignment -/

theorem AgreeIn.weaken {scope : List (Name × α)} {scope' : List (Name × β)}
    (agree : AgreeIn relation scope scope')
    (weaker : ∀ entry ∈ scope, ∀ item', relation entry.2 item' → relation' entry.2 item') :
    AgreeIn relation' scope scope' := by
  induction agree with
  | nil => exact .nil
  | cons head tail inductionHypothesis =>
    refine .cons ⟨head.1, weaker _ List.mem_cons_self _ head.2⟩ ?_
    exact inductionHypothesis fun entry member => weaker entry (List.mem_cons_of_mem _ member)

theorem Agree.weaken (agree : Agree relation first second)
    (weaker : ∀ entry ∈ first.flatten, ∀ item', relation entry.2 item' → relation' entry.2 item') :
    Agree relation' first second := by
  induction agree with
  | nil => exact .nil
  | cons head tail inductionHypothesis =>
    refine .cons (head.weaken fun entry member => weaker entry ?_)
      (inductionHypothesis fun entry member => weaker entry ?_)
    · exact List.mem_append_left _ member
    · exact List.mem_append_right _ member

/-- Assigning to a name keeps two scopes related if what the other names stand for stays related. -/
theorem AgreeIn.setIn {scope : List (Name × α)} {scope' : List (Name × β)} {item : α} {item' : β}
    (agree : AgreeIn relation scope scope') (found : scope.lookup name = some item)
    (related : relation' item item')
    (others : ∀ before after, scope = before ++ (name, item) :: after →
      ∀ entry ∈ before ++ after, ∀ other, relation entry.2 other → relation' entry.2 other) :
    AgreeIn relation' scope (setIn name item' scope') := by
  induction agree with
  | nil => cases found
  | @cons entry entry' rest rest' head tail inductionHypothesis =>
    obtain ⟨key, held⟩ := entry
    obtain ⟨key', held'⟩ := entry'
    obtain ⟨same, old⟩ := head
    dsimp only at same
    subst same
    rw [List.lookup_cons] at found
    unfold Scopes.setIn
    by_cases here : key = name
    · subst here
      rw [beq_self_eq_true] at found
      cases found
      rw [if_pos rfl]
      exact .cons ⟨rfl, related⟩ (AgreeIn.weaken tail (others [] rest rfl))
    · rw [beq_false_of_ne (Ne.symm here)] at found
      rw [if_neg here]
      refine .cons ⟨rfl, ?_⟩ (inductionHypothesis found fun before after split entry member => ?_)
      · obtain ⟨before, after, split, _⟩ := List.lookup_eq_some_iff.1 found
        exact others ((key, held) :: before) after (by rw [split]; rfl) _ List.mem_cons_self _ old
      · exact others ((key, held) :: before) after (by rw [split]; rfl) entry
          (List.mem_cons_of_mem _ member)

theorem Agree.set {item : α} {item' : β} (agree : Agree relation first second)
    (found : first.resolve? name = some item) (related : relation' item item')
    (others : ∀ before after, first.flatten = before ++ (name, item) :: after →
      ∀ entry ∈ before ++ after, ∀ other, relation entry.2 other → relation' entry.2 other) :
    Agree relation' first (second.set name item') := by
  induction agree with
  | nil => cases found
  | @cons scope scope' outer outer' head tail inductionHypothesis =>
    unfold resolve? at found
    rw [List.findSome?_cons] at found
    unfold Scopes.set
    rcases head.lookup name with ⟨missing, missing'⟩ | ⟨held, held', inside, inside', _⟩
    · rw [missing] at found
      rw [missing', if_neg (by simp)]
      refine .cons (head.weaken fun entry member => ?_)
        (inductionHypothesis found fun before after split entry member => ?_)
      · obtain ⟨before, after, split⟩ := List.append_of_mem (mem_of_resolve? found)
        exact others (scope ++ before) after (by rw [List.flatten_cons, split]; simp) entry
          (by simp [member])
      · refine others (scope ++ before) after (by rw [List.flatten_cons, split]; simp) entry ?_
        rw [List.append_assoc]
        exact List.mem_append_right _ member
    · rw [inside] at found
      cases found
      rw [inside', if_pos Option.isSome_some]
      refine .cons (head.setIn inside related fun before after split entry member => ?_)
        (Agree.weaken tail fun entry member => ?_)
      · exact others before (after ++ outer.flatten) (by rw [List.flatten_cons, split]; simp) entry
          (by rw [← List.append_assoc]; exact List.mem_append_left _ member)
      · obtain ⟨before, after, split, _⟩ := List.lookup_eq_some_iff.1 inside
        exact others before (after ++ outer.flatten) (by rw [List.flatten_cons, split]; simp) entry
          (by simp [member])

end Scopes

end TreeLowering.Tree
