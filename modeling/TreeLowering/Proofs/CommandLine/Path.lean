/-
This file proves what giving a path another extension does to it. Only the name at its end is
changed, and that name stays the same just when it had the extension before.
-/

import Mathlib
import TreeLowering.CommandLine.Path

namespace TreeLowering.CommandLine.Path

open Text

/-- The extension of the file name. -/
def extension? (path : Path) : Option String := do
  let (_, name) ← path.splitName?
  let extension ← (splitExtension name).2
  return String.ofList extension

variable {path path' : Path} {front : List (List Char)} {name name' stem extension : List Char}

/-! ### Names -/

theorem isIdle_of_isName (named : isName name = true) : isIdle name = false := by
  rw [isName, Bool.not_or, Bool.and_eq_true, Bool.not_eq_true'] at named
  exact named.1

theorem splitExtension_append (some : stem ≠ []) (plain : '.' ∉ extension) :
    splitExtension (stem ++ '.' :: extension) = (stem, Option.some extension) := by
  have reversed : (stem ++ '.' :: extension).reverse =
      extension.reverse ++ '.' :: stem.reverse := by simp
  have cut := splitAt?_append (mt List.mem_reverse.1 plain) stem.reverse
  rw [splitExtension, reversed, cut]
  cases parts : stem.reverse with
  | nil => exact absurd (List.reverse_eq_nil_iff.1 parts) some
  | cons c rest => simp [← parts]

/-- A name either has no extension, or it is its stem and its extension with a dot between them. -/
theorem splitExtension_cases (name : List Char) : splitExtension name = (name, none) ∨
    ∃ stem extension, name = stem ++ '.' :: extension ∧ stem ≠ [] ∧ '.' ∉ extension ∧
      splitExtension name = (stem, some extension) := by
  cases cut : splitAt? '.' name.reverse with
  | none => exact .inl (by rw [splitExtension, cut])
  | some parts =>
    obtain ⟨extension, stem⟩ := parts
    cases stem with
    | nil => exact .inl (by rw [splitExtension, cut])
    | cons c stem =>
      obtain ⟨reversed, plain⟩ := splitAt?_eq_some_iff.1 cut
      have whole : name = (c :: stem).reverse ++ '.' :: extension.reverse := by
        rw [← List.reverse_reverse name, reversed]
        simp
      exact .inr ⟨_, _, whole, by simp, mt List.mem_reverse.1 plain, by rw [splitExtension, cut]⟩

/-- A name ends in its own extension and in no other. -/
theorem eq_stem_append_iff :
    name = (splitExtension name).1 ++ '.' :: extension ↔
      (splitExtension name).2 = some extension := by
  rcases splitExtension_cases name with bare | ⟨stem, own, whole, _, _, split⟩
  · rw [bare]
    simp
  · rw [split]
    constructor
    · intro same
      have rest := List.append_cancel_left (whole.symm.trans same)
      rw [List.cons_inj_right] at rest
      exact congrArg some rest
    · rintro ⟨⟩
      exact whole

/-! ### Pieces -/

theorem segments_ne_nil (path : Path) : path.segments ≠ [] := pieces_ne_nil _ _

theorem not_mem_of_mem_segments {segment : List Char} (listed : segment ∈ path.segments) :
    '/' ∉ segment := not_mem_of_mem_pieces listed

theorem segments_ofSegments {list : List (List Char)} (nonempty : list ≠ [])
    (apart : ∀ segment ∈ list, '/' ∉ segment) : (ofSegments list).segments = list := by
  rw [segments, ofSegments, String.toList_ofList, pieces_joinPieces nonempty apart]

theorem trimIdle_append (front : List (List Char)) (busy : isIdle name = false) :
    trimIdle (front ++ [name]) = front ++ [name] := by
  cases front with
  | nil => rfl
  | cons first rest => simp [trimIdle, busy]

theorem splitName?_of_segments (whole : path.segments = front ++ [name])
    (named : isName name = true) : path.splitName? = some (front, name) := by
  simp [splitName?, whole, trimIdle_append front (isIdle_of_isName named), named]

theorem splitName?_of_parent (whole : path.segments = front ++ [['.', '.']]) :
    path.splitName? = none := by
  have trimmed : trimIdle (front ++ [['.', '.']]) = front ++ [['.', '.']] :=
    trimIdle_append front (by decide)
  simp [splitName?, whole, trimmed, isName]

theorem extension?_of_segments (whole : path.segments = front ++ [name])
    (named : isName name = true) :
    path.extension? = (splitExtension name).2.map String.ofList := by
  rw [extension?, splitName?_of_segments whole named]
  cases h : (splitExtension name).2 <;> simp [h]

/-- Whether a path starts at the root does not depend on the name at its end. -/
theorem isAbsolute_congr (whole : path.segments = front ++ [name])
    (whole' : path'.segments = front ++ [name']) : path'.isAbsolute = path.isAbsolute := by
  rw [isAbsolute, isAbsolute, whole, whole']
  rcases front with _ | ⟨_ | ⟨c, first⟩, _ | ⟨second, rest⟩⟩ <;> simp

/-! ### Another extension -/

/-- Behind a path that ends in a name, the extension is put in place of the old one. Only a name
that is a dot with an extension becomes the directory above. -/
theorem segments_withExtension {extension : String} (whole : path.segments = front ++ [name])
    (named : isName name = true) (flat : '/' ∉ extension.toList) :
    (path.withExtension extension).segments =
        front ++ [(splitExtension name).1 ++ '.' :: extension.toList] ∨
      (path.withExtension extension).segments = front ++ [['.', '.']] := by
  have apart : ∀ segment ∈ front ++ [name], '/' ∉ segment := fun segment listed =>
    not_mem_of_mem_segments (whole ▸ listed)
  have inFront : ∀ segment ∈ front, '/' ∉ segment := fun segment listed =>
    apart segment (List.mem_append_left _ listed)
  have inName : '/' ∉ name := apart name (by simp)
  have rebuilt : ∀ {last : List Char}, '/' ∉ last →
      (ofSegments (front ++ [last])).segments = front ++ [last] := by
    intro last absent
    refine segments_ofSegments (by simp) fun segment listed => ?_
    rcases List.mem_append.1 listed with before | last
    · exact inFront segment before
    · exact List.mem_singleton.1 last ▸ absent
  have ending : path.segments.getLast? = some name := by rw [whole, List.getLast?_concat]
  rcases splitExtension_cases name with bare | ⟨stem, old, joined, full, plain, split⟩
  · have same : path.dropExtension = path := by
      simp [dropExtension, ending, bare]
    refine .inl ?_
    rw [withExtension, same, addExtension, splitName?_of_segments whole named]
    dsimp only
    rw [bare]
    refine rebuilt ?_
    simp [inName, flat]
  · have absent : '/' ∉ stem := fun slash => inName (joined ▸ List.mem_append_left _ slash)
    have dropped : path.dropExtension = ofSegments (front ++ [stem ++ ['.']]) := by
      simp [dropExtension, split, named, whole]
    have whole' : path.dropExtension.segments = front ++ [stem ++ ['.']] := by
      rw [dropped]
      exact rebuilt (by simp [absent])
    by_cases dot : stem = ['.']
    · subst dot
      refine .inr ?_
      rw [withExtension, addExtension, splitName?_of_parent whole']
      exact whole'
    · have named' : isName (stem ++ ['.']) = true := by
        obtain ⟨c, rest, rfl⟩ := List.exists_cons_of_ne_nil full
        cases rest with
        | nil => simpa [isName, isIdle] using dot
        | cons d rest => simp [isName, isIdle]
      have cut : splitExtension (stem ++ ['.']) = (stem, some []) :=
        splitExtension_append full List.not_mem_nil
      refine .inl ?_
      rw [withExtension, addExtension, splitName?_of_segments whole' named', split]
      dsimp only
      rw [cut]
      exact rebuilt (by simp [absent, flat])

/-- The directory above is no name, so it takes no extension. -/
theorem withExtension_of_parent {extension : String}
    (whole : path.segments = front ++ [['.', '.']]) : path.withExtension extension = path := by
  have ending : path.segments.getLast? = some ['.', '.'] := by rw [whole, List.getLast?_concat]
  have same : path.dropExtension = path := by
    simp [dropExtension, ending, splitExtension, splitAt?, isName]
  rw [withExtension, same, addExtension, splitName?_of_parent whole]

end TreeLowering.CommandLine.Path
