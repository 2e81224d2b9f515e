/-
This file says which words name a stage on the command line, and proves that a list of words is read
as the stages it names. The first word that is neither blank nor a name is the one objected to.
-/

import Mathlib
import TreeLowering.CommandLine.Arguments

namespace TreeLowering.Text

theorem trim_eq_nil_iff {text : List Char} : trim text = [] ↔ ∀ c ∈ text, isBlank c = true := by
  rw [trim, List.reverse_eq_nil_iff, List.dropWhile_eq_nil_iff]
  simp only [List.mem_reverse]
  constructor
  · intro blank c member
    rw [← List.takeWhile_append_dropWhile (p := isBlank) (l := text)] at member
    rcases List.mem_append.1 member with front | back
    · exact List.mem_takeWhile_imp front
    · exact blank c back
  · exact fun blank c member => blank c ((List.dropWhile_sublist _).subset member)

end TreeLowering.Text

namespace TreeLowering.CommandLine

open Text

/-! ### Names of stages -/

/-- Two characters count as one in the name of a stage: case does not matter, and a dash and an
underscore are the same. -/
def SameInName (left right : Char) : Prop :=
  left.toUpper = right.toUpper ∨ left ∈ ['-', '_'] ∧ right ∈ ['-', '_']

/-- A word names a stage; blanks around the name do not count. -/
def Stage.NamedBy (stage : Stage) (word : String) : Prop :=
  List.Forall₂ SameInName (trim word.toList) stage.spelling.toList

/-- There is nothing in a word but blanks. -/
def Blank (word : String) : Prop := ∀ c ∈ word.toList, isBlank c = true

/-- A word that may stand in a list of stages. -/
def Accepted (word : String) : Prop := Blank word ∨ ∃ stage : Stage, stage.NamedBy word

/-- A mark that is no letter is the upper case of itself only. -/
theorem toUpper_eq_iff {c mark : Char} (same : mark.toUpper = mark)
    (outside : mark.toNat < 'A'.toNat ∨ 'Z'.toNat < mark.toNat) : c.toUpper = mark ↔ c = mark := by
  by_cases lower : 'a'.val ≤ c.val ∧ c.val ≤ 'z'.val
  · have letter : c.toUpper.val = c.val + ('A'.val - 'a'.val) := by
      rw [Char.toUpper, dif_pos lower]
    constructor
    · rintro rfl
      have least : 97 ≤ c.val.toNat := UInt32.le_iff_toNat_le.1 lower.1
      have most : c.val.toNat ≤ 122 := UInt32.le_iff_toNat_le.1 lower.2
      have value : c.toUpper.val.toNat = (c.val.toNat + 4294967264) % 4294967296 :=
        (congrArg UInt32.toNat letter).trans (UInt32.toNat_add ..)
      have outside : c.toUpper.val.toNat < 65 ∨ 90 < c.toUpper.val.toNat := outside
      omega
    · rintro rfl
      exact same
  · rw [Char.toUpper, dif_neg lower]

theorem toUpper_eq_dash_iff {c : Char} : c.toUpper = '-' ↔ c = '-' :=
  toUpper_eq_iff (by decide) (by decide)

theorem toUpper_eq_underscore_iff {c : Char} : c.toUpper = '_' ↔ c = '_' :=
  toUpper_eq_iff (by decide) (by decide)

/-- Characters that count as one have one plain form. -/
theorem sameInName_iff {left right : Char} :
    SameInName left right ↔ Stage.plainChar left = Stage.plainChar right := by
  unfold SameInName Stage.plainChar
  simp only [List.mem_cons, List.not_mem_nil, or_false]
  by_cases dash : left = '-' <;> by_cases dash' : right = '-'
  · simp [dash, dash']
  · have upper : '-'.toUpper = right.toUpper ↔ False := by
      rw [eq_comm, show '-'.toUpper = '-' by decide, toUpper_eq_dash_iff, iff_false]
      exact dash'
    rw [if_pos dash, if_neg dash', dash, upper, eq_comm (a := '_'), toUpper_eq_underscore_iff]
    simp [dash']
  · have upper : left.toUpper = '-'.toUpper ↔ False := by
      rw [show '-'.toUpper = '-' by decide, toUpper_eq_dash_iff, iff_false]
      exact dash
    rw [if_neg dash, if_pos dash', dash', upper, toUpper_eq_underscore_iff]
    simp [dash]
  · rw [if_neg dash, if_neg dash', or_iff_left_iff_imp]
    rintro ⟨same, same'⟩
    rw [same.resolve_left dash, same'.resolve_left dash']

theorem plainChar_spelling (stage : Stage) :
    stage.spelling.toList.map Stage.plainChar = stage.name.toList := by
  cases stage <;> decide

theorem Stage.namedBy_iff {stage : Stage} {word : String} :
    stage.NamedBy word ↔ (trim word.toList).map plainChar = stage.name.toList := by
  rw [← plainChar_spelling, NamedBy, ← List.forall₂_eq_eq_eq, List.forall₂_map_left_iff,
    List.forall₂_map_right_iff]
  exact iff_of_eq (congrArg (List.Forall₂ · _ _)
    (by funext left right; exact propext sameInName_iff))

theorem Stage.name_injective {stage stage' : Stage} (same : stage.name = stage'.name) :
    stage = stage' := by
  revert same
  cases stage <;> cases stage' <;> decide

/-- A word is read as the stage it names. -/
theorem Stage.ofWord?_eq_some_iff {stage : Stage} {word : String} :
    ofWord? word.toList = some stage ↔ stage.NamedBy word := by
  have named : ∀ other : Stage,
      (other.name == String.ofList ((trim word.toList).map plainChar)) = true ↔
        other.NamedBy word := by
    intro other
    rw [beq_iff_eq, namedBy_iff, eq_comm, ← String.toList_inj, String.toList_ofList]
  rw [show ofWord? word.toList = all.find? fun other =>
    other.name == String.ofList ((trim word.toList).map plainChar) from rfl]
  generalize String.ofList ((trim word.toList).map plainChar) = plain at named
  have hit : ∀ other, all.find? (fun other : Stage => other.name == plain) = some other →
      (other.name == plain) = true := by
    intro other found
    simpa using List.find?_some found
  constructor
  · exact fun found => (named stage).1 (hit stage found)
  · intro names
    have listed : stage ∈ all := by cases stage <;> decide
    have same := (named stage).2 names
    cases found : all.find? fun other => other.name == plain with
    | none => exact absurd same (List.find?_eq_none.1 found stage listed)
    | some other =>
      exact congrArg some (name_injective
        ((beq_iff_eq.1 (hit other found)).trans (beq_iff_eq.1 same).symm))

theorem Stage.ofWord?_eq_none_iff {word : String} :
    ofWord? word.toList = none ↔ ∀ stage : Stage, ¬ stage.NamedBy word := by
  rw [Option.eq_none_iff_forall_ne_some]
  exact forall_congr' fun stage => not_congr ofWord?_eq_some_iff

/-! ### Lists of stages -/

theorem blank_iff {word : String} : (trim word.toList).isEmpty = true ↔ Blank word := by
  rw [List.isEmpty_iff, trim_eq_nil_iff, Blank]

theorem not_blank_of_namedBy {stage : Stage} {word : String} (names : stage.NamedBy word) :
    ¬ Blank word := by
  intro blank
  rw [Stage.namedBy_iff, trim_eq_nil_iff.2 blank] at names
  cases stage <;> exact absurd names (by decide)

/-- What is read from a list of words: the stages that some word names, if each word is blank or
names one. -/
theorem has_of_stagesOfWords {words : List String} {set : StageSet}
    (read : stagesOfWords (words.map String.toList) = .ok set) :
    (∀ word ∈ words, Accepted word) ∧
      ∀ stage, set.has stage = true ↔ ∃ word ∈ words, stage.NamedBy word := by
  induction words generalizing set with
  | nil =>
    cases read
    exact ⟨nofun, fun stage => by simp [StageSet.empty]⟩
  | cons word rest inductionHypothesis =>
    rw [List.map_cons, stagesOfWords] at read
    split at read
    next blank =>
      have blank := blank_iff.1 blank
      obtain ⟨accepted, has⟩ := inductionHypothesis read
      refine ⟨List.forall_mem_cons.2 ⟨.inl blank, accepted⟩, fun stage => ?_⟩
      rw [has, List.exists_mem_cons_iff, or_iff_right fun names => not_blank_of_namedBy names blank]
    next =>
    split at read
    next => cases read
    next stage named =>
    cases others : stagesOfWords (rest.map String.toList) with
    | error cause =>
      rw [others] at read
      cases read
    | ok set' =>
      rw [others] at read
      cases read
      have names := Stage.ofWord?_eq_some_iff.1 named
      obtain ⟨accepted, has⟩ := inductionHypothesis others
      refine ⟨List.forall_mem_cons.2 ⟨.inr ⟨stage, names⟩, accepted⟩, fun other => ?_⟩
      rw [List.exists_mem_cons_iff, ← has, ← Stage.ofWord?_eq_some_iff, named, Option.some_inj]
      simp only [StageSet.union, StageSet.single, Bool.or_eq_true, beq_iff_eq, eq_comm (a := other)]

/-- The first word that is neither blank nor a name is objected to. -/
theorem word_of_stagesOfWords {words : List String} {cause : UsageError}
    (refused : stagesOfWords (words.map String.toList) = .error cause) :
    ∃ before word after, words = before ++ word :: after ∧ (∀ other ∈ before, Accepted other) ∧
      ¬ Accepted word ∧ cause = .unknownStage (String.ofList (trim word.toList)) := by
  induction words with
  | nil => cases refused
  | cons word rest inductionHypothesis =>
    rw [List.map_cons, stagesOfWords] at refused
    split at refused
    next blank =>
      obtain ⟨before, other, after, rfl, accepted, rest⟩ := inductionHypothesis refused
      exact ⟨word :: before, other, after, rfl,
        List.forall_mem_cons.2 ⟨.inl (blank_iff.1 blank), accepted⟩, rest⟩
    next full =>
    split at refused
    next unnamed =>
      cases refused
      refine ⟨[], word, rest, rfl, nofun, ?_, rfl⟩
      rintro (blank | ⟨stage, names⟩)
      · exact full (blank_iff.2 blank)
      · exact Stage.ofWord?_eq_none_iff.1 unnamed stage names
    next stage named =>
    cases others : stagesOfWords (rest.map String.toList) with
    | ok set =>
      rw [others] at refused
      cases refused
    | error cause' =>
      rw [others] at refused
      cases refused
      obtain ⟨before, other, after, rfl, accepted, rest⟩ := inductionHypothesis others
      exact ⟨word :: before, other, after, rfl, List.forall_mem_cons.2
        ⟨.inr ⟨stage, Stage.ofWord?_eq_some_iff.1 named⟩, accepted⟩, rest⟩

/-- A list with a word that is neither blank nor a name is refused. -/
theorem stagesOfWords_error {before after : List String} {word : String}
    (accepted : ∀ other ∈ before, Accepted other) (refused : ¬ Accepted word) :
    stagesOfWords ((before ++ word :: after).map String.toList) =
      .error (.unknownStage (String.ofList (trim word.toList))) := by
  induction before with
  | nil =>
    obtain ⟨full, unnamed⟩ := not_or.1 refused
    rw [List.nil_append, List.map_cons, stagesOfWords, if_neg (mt blank_iff.1 full),
      Stage.ofWord?_eq_none_iff.2 (not_exists.1 unnamed)]
  | cons other before inductionHypothesis =>
    obtain ⟨first, accepted⟩ := List.forall_mem_cons.1 accepted
    rw [List.cons_append, List.map_cons, stagesOfWords]
    split
    next => exact inductionHypothesis accepted
    next full =>
    obtain ⟨stage, names⟩ := first.resolve_left (mt blank_iff.2 full)
    rw [Stage.ofWord?_eq_some_iff.2 names, inductionHypothesis accepted]
    rfl

end TreeLowering.CommandLine
