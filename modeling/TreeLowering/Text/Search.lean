/-
This file cuts texts: it finds what follows a given beginning, looks for one text inside another,
and splits at marks. Texts are lists of characters here, so that every function is plain recursion.
-/

namespace TreeLowering.Text

/-- What follows `start` at the beginning of a text. -/
def dropStart? : (start text : List Char) → Option (List Char)
  | [], text => some text
  | _ :: _, [] => none
  | expected :: start, found :: text => if expected = found then dropStart? start text else none

/-- Whether a text begins with `start`. -/
def startsWith (start : String) (text : List Char) : Bool :=
  (dropStart? start.toList text).isSome

/-- Whether `part` occurs somewhere in a text. -/
def contains (part : String) : List Char → Bool
  | [] => startsWith part []
  | c :: text => startsWith part (c :: text) || contains part text

/-- What stands before the first `mark`, and what stands after it. -/
def splitAt? (mark : Char) : List Char → Option (List Char × List Char)
  | [] => none
  | c :: text =>
    if c = mark then some ([], text)
    else (splitAt? mark text).map fun (before, after) => (c :: before, after)

/-- The pieces between the marks of a text; a text without marks is one piece. -/
def pieces (mark : Char) : List Char → List (List Char)
  | [] => [[]]
  | c :: text =>
    if c = mark then [] :: pieces mark text
    else
      match pieces mark text with
      | [] => [[c]]
      | piece :: rest => (c :: piece) :: rest

/-- Pieces put together again with a mark between each two. -/
def joinPieces (mark : Char) : List (List Char) → List Char
  | [] => []
  | [piece] => piece
  | piece :: rest => piece ++ mark :: joinPieces mark rest

/-! ### Beginnings and marks -/

@[simp] theorem dropStart?_append (start rest : List Char) :
    dropStart? start (start ++ rest) = some rest := by
  induction start with
  | nil => rfl
  | cons c start ih => simp [dropStart?, ih]

theorem dropStart?_eq_some_iff {start text rest : List Char} :
    dropStart? start text = some rest ↔ text = start ++ rest := by
  constructor
  · intro found
    fun_induction dropStart? start text with
    | case1 text =>
      cases found
      rfl
    | case2 => cases found
    | case3 expected start text inductionHypothesis =>
      rw [inductionHypothesis found, List.cons_append]
    | case4 => cases found
  · rintro rfl
    exact dropStart?_append start rest

theorem splitAt?_append {mark : Char} {before : List Char} (absent : mark ∉ before)
    (after : List Char) : splitAt? mark (before ++ mark :: after) = some (before, after) := by
  induction before with
  | nil => simp [splitAt?]
  | cons c before ih =>
    rw [List.mem_cons, not_or] at absent
    simp [splitAt?, Ne.symm absent.1, ih absent.2]

theorem splitAt?_eq_some_iff {mark : Char} {text before after : List Char} :
    splitAt? mark text = some (before, after) ↔ text = before ++ mark :: after ∧ mark ∉ before := by
  constructor
  · intro found
    induction text generalizing before with
    | nil => cases found
    | cons c text inductionHypothesis =>
      unfold splitAt? at found
      split at found
      next same =>
        cases found
        exact ⟨congrArg (List.cons · _) same, List.not_mem_nil⟩
      next other =>
        obtain ⟨⟨rest, after⟩, found, same⟩ := Option.map_eq_some_iff.1 found
        cases same
        obtain ⟨rfl, absent⟩ := inductionHypothesis found
        exact ⟨rfl, List.not_mem_cons_of_ne_of_not_mem (Ne.symm other) absent⟩
  · rintro ⟨rfl, absent⟩
    exact splitAt?_append absent after

/-! ### Pieces -/

theorem pieces_ne_nil (mark : Char) (text : List Char) : pieces mark text ≠ [] := by
  cases text with
  | nil => simp [pieces]
  | cons c text =>
    unfold pieces
    split
    · simp
    · split <;> simp

/-- Splitting a text loses nothing. -/
theorem joinPieces_pieces (mark : Char) (text : List Char) :
    joinPieces mark (pieces mark text) = text := by
  induction text with
  | nil => rfl
  | cons c text ih =>
    unfold pieces
    split
    · next same =>
      subst same
      cases h : pieces c text with
      | nil => exact absurd h (pieces_ne_nil c text)
      | cons piece rest => simp_all [joinPieces]
    · cases h : pieces mark text with
      | nil => exact absurd h (pieces_ne_nil mark text)
      | cons piece rest => cases rest <;> simp_all [joinPieces]

theorem not_mem_of_mem_pieces {mark : Char} {text piece : List Char}
    (listed : piece ∈ pieces mark text) : mark ∉ piece := by
  induction text generalizing piece with
  | nil =>
    rw [pieces, List.mem_singleton] at listed
    simp [listed]
  | cons c text inductionHypothesis =>
    unfold pieces at listed
    split at listed
    · rcases List.mem_cons.1 listed with rfl | listed
      · exact List.not_mem_nil
      · exact inductionHypothesis listed
    next other =>
    split at listed
    next none => exact absurd none (pieces_ne_nil mark text)
    next first rest split =>
    rcases List.mem_cons.1 listed with rfl | listed
    · have absent : mark ∉ first := inductionHypothesis (split ▸ List.mem_cons_self)
      simp [absent, Ne.symm other]
    · exact inductionHypothesis (split ▸ List.mem_cons_of_mem _ listed)

theorem pieces_of_not_mem {mark : Char} {piece : List Char} (absent : mark ∉ piece) :
    pieces mark piece = [piece] := by
  induction piece with
  | nil => rfl
  | cons c piece inductionHypothesis =>
    rw [List.mem_cons, not_or] at absent
    simp [pieces, Ne.symm absent.1, inductionHypothesis absent.2]

theorem pieces_append {mark : Char} {piece : List Char} (absent : mark ∉ piece)
    (rest : List Char) : pieces mark (piece ++ mark :: rest) = piece :: pieces mark rest := by
  induction piece with
  | nil => simp [pieces]
  | cons c piece inductionHypothesis =>
    rw [List.mem_cons, not_or] at absent
    simp [pieces, Ne.symm absent.1, inductionHypothesis absent.2]

/-- Pieces without marks are found again where they were put together. -/
theorem pieces_joinPieces {mark : Char} {list : List (List Char)} (some : list ≠ [])
    (apart : ∀ piece ∈ list, mark ∉ piece) : pieces mark (joinPieces mark list) = list := by
  induction list with
  | nil => exact absurd rfl some
  | cons piece rest inductionHypothesis =>
    have absent := apart piece List.mem_cons_self
    cases rest with
    | nil => exact pieces_of_not_mem absent
    | cons next rest =>
      rw [joinPieces, pieces_append absent, inductionHypothesis nofun fun other listed =>
        apart other (List.mem_cons_of_mem _ listed)]
      exact nofun

end TreeLowering.Text
