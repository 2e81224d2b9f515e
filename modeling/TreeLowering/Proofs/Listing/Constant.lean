/-
This file shows that the text of a constant can be read back. The first character of a text tells
what kind of constant it stands for. Characters and byte strings have readers of their own, since
what stands between quotes may look like anything else; lists end at a character that begins no
item, so nested constants are told apart by an induction over them.
-/

import TreeLowering.Proofs.Listing.Line
import TreeLowering.Proofs.Listing.Separate

namespace TreeLowering.Ir.Constant

open TreeLowering.Text

/-! ### Quoted characters -/

/-- The character that stands behind a backslash, and what follows it. -/
def readEscape : List Char → Option (Char × List Char)
  | 't' :: rest => some ('\t', rest)
  | 'r' :: rest => some ('\r', rest)
  | 'n' :: rest => some ('\n', rest)
  | '\'' :: rest => some ('\'', rest)
  | '"' :: rest => some ('"', rest)
  | '\\' :: rest => some ('\\', rest)
  | 'u' :: '\x7b' :: rest =>
    some (Char.ofNat (readDigits 16 (rest.takeWhile (· != '\x7d'))),
      (rest.dropWhile (· != '\x7d')).drop 1)
  | _ => none

/-- The character that a text between single quotes begins with, and what follows it. -/
def readChar : List Char → Option (Char × List Char)
  | '\\' :: rest => readEscape rest
  | c :: rest => some (c, rest)
  | [] => none

theorem readChar_plain {c : Char} (plain : c ≠ '\\') (rest : List Char) :
    readChar (c :: rest) = some (c, rest) := by
  unfold readChar
  split
  · next same => exact absurd (List.cons.inj same).1 plain
  · next same => cases same; rfl
  · next same => cases same

theorem readChar_codePoint (c : Char) (rest : List Char) :
    readChar ('\\' :: 'u' :: '\x7b' :: (Nat.toDigits 16 c.toNat ++ '\x7d' :: rest)) =
      some (c, rest) := by
  have digits : ∀ digit ∈ Nat.toDigits 16 c.toNat, (digit != '\x7d') = true := by
    intro digit member
    rw [bne_iff_ne]
    rintro rfl
    exact absurd (toDigits_mem (by decide) (by decide) _ _ member) (by decide)
  rw [readChar, readEscape, List.takeWhile_append_of_pos digits, List.dropWhile_append_of_pos digits,
    List.takeWhile_cons_of_neg (by decide), List.dropWhile_cons_of_neg (by decide), List.append_nil,
    readDigits_toDigits (by decide) (by decide), Char.ofNat_toNat]
  rfl

/-- A quoted character is read back, whatever follows it. -/
theorem readChar_quotedChar (c : Char) (rest : List Char) :
    readChar ((quotedChar c).toList ++ rest) = some (c, rest) := by
  unfold quotedChar
  split_ifs with tab carriage feed single double slash shown
  · subst tab; rfl
  · subst carriage; rfl
  · subst feed; rfl
  · subst single; rfl
  · subst double; rfl
  · subst slash; rfl
  · rw [Char.toString_eq_singleton, String.toList_singleton]
    exact readChar_plain slash rest
  · simp only [String.toList_append, hexDigits, String.toList_ofList, List.append_assoc]
    exact readChar_codePoint c rest

/-! ### Byte strings -/

/-- The bytes up to the closing quote, and what follows it. -/
def readBytes : List Char → Option (List UInt8 × List Char)
  | '"' :: rest => some ([], rest)
  | '\\' :: high :: low :: rest =>
    (readBytes rest).map fun (content, left) =>
      (UInt8.ofNat (16 * digitValue high + digitValue low) :: content, left)
  | c :: rest => (readBytes rest).map fun (content, left) => (UInt8.ofNat c.toNat :: content, left)
  | [] => none

theorem digitValue_hexDigit : ∀ number < 16, digitValue (hexDigit number) = number := by
  decide

theorem toNat_ofNat_ascii : ∀ code < 0x7f, (Char.ofNat code).toNat = code := by
  decide

/-- A quoted byte is read back, whatever follows it. -/
theorem readBytes_quotedByte (byte : UInt8) (rest : List Char) :
    readBytes (quotedByte byte ++ rest) =
      (readBytes rest).map fun (content, left) => (byte :: content, left) := by
  have small := byte.toNat_lt
  unfold quotedByte
  split
  · next plain =>
    simp only [isPlainByte, Bool.and_eq_true, decide_eq_true_eq, bne_iff_ne,
      UInt8.le_iff_toNat_le, ne_eq, ← UInt8.toNat_inj] at plain
    obtain ⟨⟨⟨-, high⟩, noQuote⟩, noSlash⟩ := plain
    have code := toNat_ofNat_ascii byte.toNat (Nat.lt_succ_of_le high)
    have noQuote : Char.ofNat byte.toNat ≠ '"' :=
      fun same => noQuote (code.symm.trans (congrArg Char.toNat same))
    have noSlash : Char.ofNat byte.toNat ≠ '\\' :=
      fun same => noSlash (code.symm.trans (congrArg Char.toNat same))
    rw [List.singleton_append, readBytes]
    · simp only [code, UInt8.ofNat_toNat]
    · exact noQuote
    · exact fun _ _ _ same => absurd same noSlash
  · have high := digitValue_hexDigit (byte.toNat / 16) (by omega)
    have low := digitValue_hexDigit (byte.toNat % 16) (by omega)
    rw [List.cons_append, List.cons_append, List.singleton_append, readBytes, high, low,
      Nat.div_add_mod, UInt8.ofNat_toNat]

/-- A byte string is read back up to its closing quote, whatever bytes are in it. -/
theorem readBytes_content (content : List UInt8) (rest : List Char) :
    readBytes (content.flatMap quotedByte ++ '"' :: rest) = some (content, rest) := by
  induction content with
  | nil => rw [List.flatMap_nil, List.nil_append, readBytes]
  | cons byte content inductionHypothesis =>
    rw [List.flatMap_cons, List.append_assoc, readBytes_quotedByte, inductionHypothesis]
    rfl

/-! ### The first character -/

/-- What the first character of a text tells about the constant. -/
inductive Form where
  | number
  | truth
  | char
  | bytes
  | list
  | braces
  | unit

/-- The form of the constants whose texts begin with a character, if there are any. -/
def Form.ofChar? : Char → Option Form
  | 't' | 'f' => some truth
  | '\'' => some char
  | 'c' => some bytes
  | '[' => some list
  | '\x7b' => some braces
  | '(' => some unit
  | c => if c.isDigit || c == '-' then some number else none

/-- Slices and structs begin alike. -/
def form : Constant → Form
  | int _ => .number
  | bool _ => .truth
  | char _ => .char
  | bytes _ => .bytes
  | array _ => .list
  | slice .. | struct _ => .braces
  | unit => .unit

theorem Form.ofChar?_digit {c : Char} (digit : c.isDigit = true) : ofChar? c = some number := by
  unfold ofChar?
  split
  iterate 7 cases digit
  rw [digit, Bool.true_or, if_pos rfl]

/-- The text of a constant, character by character. -/
def letters (constant : Constant) : List Char := constant.text.toList

theorem letters_char (value : Char) :
    letters (char value) = '\'' :: ((quotedChar value).toList ++ ['\'']) := by
  simp [letters, text, String.toList_append]

theorem letters_bytes (content : List UInt8) :
    letters (bytes content) = 'c' :: '"' :: (content.flatMap quotedByte ++ ['"']) := by
  simp [letters, text, String.toList_append, String.toList_ofList]

theorem letters_slice (global : String) (len : UInt64) :
    letters (slice global len) = '\x7b' :: ' ' :: '@' ::
      (global.toList ++ ',' :: ' ' :: ((toString len).toList ++ [' ', '\x7d'])) := by
  simp [letters, text, String.toList_append]

theorem toList_textAll : ∀ items : List Constant, (textAll items).toList = commas letters items
  | [] => rfl
  | [item] => by simp [textAll, commas, letters]
  | item :: next :: rest => by
    have later := toList_textAll (next :: rest)
    rw [commas] at later
    simp [textAll, commas, letters, String.toList_append, later]

theorem letters_array (items : List Constant) :
    letters (array items) = '[' :: (commas letters items ++ [']']) := by
  simp [letters, text, String.toList_append, toList_textAll]

theorem letters_struct (items : List Constant) :
    letters (struct items) = '\x7b' :: ' ' :: (commas letters items ++ [' ', '\x7d']) := by
  simp [letters, text, String.toList_append, toList_textAll]

theorem headed : Headed letters Form.ofChar? form := by
  intro constant
  cases constant with
  | int value =>
    cases value with
    | ofNat number =>
      obtain ⟨c, digits, split, digit⟩ := exists_digit number
      exact ⟨c, digits, (toList_ofNat number).trans split, Form.ofChar?_digit digit⟩
    | negSucc number => exact ⟨_, _, toList_negSucc number, rfl⟩
  | bool value => cases value <;> exact ⟨_, _, rfl, rfl⟩
  | char value => exact ⟨_, _, letters_char value, rfl⟩
  | bytes content => exact ⟨_, _, letters_bytes content, rfl⟩
  | slice global len => exact ⟨_, _, letters_slice global len, rfl⟩
  | array items => exact ⟨_, _, letters_array items, rfl⟩
  | struct items => exact ⟨_, _, letters_struct items, rfl⟩
  | unit => exact ⟨_, _, rfl, rfl⟩

/-! ### Reading a constant back -/

/-- A constant whose names are words. -/
def Worded (constant : Constant) : Prop := ∀ name ∈ constant.names, IsWord name

instance (constant : Constant) : Decidable constant.Worded := inferInstanceAs (Decidable (∀ _ ∈ _, _))

theorem namesAll_eq (items : List Constant) : namesAll items = items.flatMap names := by
  induction items with
  | nil => rfl
  | cons item items inductionHypothesis => rw [namesAll, inductionHypothesis, List.flatMap_cons]

theorem worded_array {items : List Constant} :
    (array items).Worded ↔ ∀ item ∈ items, item.Worded := by
  rw [Worded, names, namesAll_eq, List.forall_mem_flatMap]
  rfl

theorem worded_struct {items : List Constant} :
    (struct items).Worded ↔ ∀ item ∈ items, item.Worded :=
  worded_array

/-- What is written for a constant can be told from what follows it. -/
abbrev Clear (constant : Constant) : Prop := Readable letters Worded Eq constant

theorem clear_int (value : Int) : Clear (int value) := by
  intro other rest rest' _ ends ends' equal
  have form := headed.form_unique equal
  cases other with
  | int value' =>
    obtain ⟨rfl, left⟩ := int_unique ends ends' equal
    exact ⟨rfl, left⟩
  | _ => cases form

theorem clear_bool (value : Bool) : Clear (bool value) := by
  intro other rest rest' _ _ _ equal
  have form := headed.form_unique equal
  cases other with
  | bool value' =>
    cases value <;> cases value' <;> cases equal <;> exact ⟨rfl, rfl⟩
  | _ => cases form

theorem clear_char (value : Char) : Clear (char value) := by
  intro other rest rest' _ _ _ equal
  have form := headed.form_unique equal
  cases other with
  | char value' =>
    simp only [letters_char, List.cons_append, List.append_assoc, List.cons.injEq, true_and] at equal
    have read := congrArg readChar equal
    rw [readChar_quotedChar, readChar_quotedChar] at read
    cases read
    exact ⟨rfl, rfl⟩
  | _ => cases form

theorem clear_bytes (content : List UInt8) : Clear (bytes content) := by
  intro other rest rest' _ _ _ equal
  have form := headed.form_unique equal
  cases other with
  | bytes content' =>
    simp only [letters_bytes, List.cons_append, List.append_assoc, List.cons.injEq, true_and] at equal
    have read := congrArg readBytes equal
    rw [List.nil_append, List.nil_append, readBytes_content, readBytes_content] at read
    cases read
    exact ⟨rfl, rfl⟩
  | _ => cases form

/-- Behind the brace of a slice stands a character that begins no item of a struct. -/
theorem slice_ne_struct {global : String} {len : UInt64} {items : List Constant}
    {rest rest' : List Char} : letters (slice global len) ++ rest ≠ letters (struct items) ++ rest' := by
  intro equal
  simp only [letters_slice, letters_struct, List.cons_append, List.cons.injEq, true_and] at equal
  cases items with
  | nil => cases (List.cons.inj equal).1
  | cons item items =>
    obtain ⟨first, more, split, differs⟩ := headed.opens_ne (show Form.ofChar? '@' = none from rfl) item
    rw [commas, split] at equal
    exact differs (List.cons.inj equal).1.symm

theorem clear_slice {global : String} (word : IsWord global) (len : UInt64) :
    Clear (slice global len) := by
  intro other rest rest' worded _ _ equal
  have form := headed.form_unique equal
  cases other with
  | slice global' len' =>
    simp only [letters_slice, List.cons_append, List.append_assoc, List.cons.injEq, true_and] at equal
    obtain ⟨sameGlobal, afterName⟩ := name_unique word (worded global' List.mem_cons_self)
      (endsWord_cons rfl) (endsWord_cons rfl) equal
    simp only [List.cons.injEq, true_and] at afterName
    obtain ⟨sameLen, left⟩ := wordNumber_unique (endsWord_cons rfl) (endsWord_cons rfl) afterName
    simp only [List.cons.injEq, true_and, List.nil_append] at left
    exact ⟨congrArg₂ slice sameGlobal sameLen, left⟩
  | struct items => exact absurd equal slice_ne_struct
  | _ => cases form

theorem clear_array {items : List Constant} (each : ∀ item ∈ items, Clear item) :
    Clear (array items) := by
  intro other rest rest' worded _ _ equal
  have form := headed.form_unique equal
  cases other with
  | array items' =>
    simp only [letters_array, List.cons_append, List.append_assoc, List.cons.injEq, true_and,
      List.nil_append] at equal
    obtain ⟨same, left⟩ := commas_unique rfl (by decide) (headed.opens_ne rfl) each
      (worded_array.1 worded) equal
    rw [List.forall₂_eq_eq_eq] at same
    exact ⟨congrArg array same, left⟩
  | _ => cases form

theorem clear_struct {items : List Constant} (each : ∀ item ∈ items, Clear item) :
    Clear (struct items) := by
  intro other rest rest' worded _ _ equal
  have form := headed.form_unique equal
  cases other with
  | struct items' =>
    simp only [letters_struct, List.cons_append, List.append_assoc, List.cons.injEq, true_and,
      List.nil_append] at equal
    obtain ⟨same, left⟩ := commas_unique rfl (by decide) (headed.opens_ne rfl) each
      (worded_struct.1 worded) equal
    rw [List.forall₂_eq_eq_eq] at same
    exact ⟨congrArg struct same, (List.cons.inj left).2⟩
  | slice global len => exact absurd equal.symm slice_ne_struct
  | _ => cases form

theorem clear_unit : Clear unit := by
  intro other rest rest' _ _ _ equal
  have form := headed.form_unique equal
  cases other with
  | unit => exact ⟨rfl, List.append_cancel_left equal⟩
  | _ => cases form

mutual

/-- A constant is read back from its text, however deep its items are nested. -/
theorem clear : ∀ constant : Constant, constant.Worded → Clear constant
  | int value, _ => clear_int value
  | bool value, _ => clear_bool value
  | char value, _ => clear_char value
  | bytes content, _ => clear_bytes content
  | slice global len, worded => clear_slice (worded global List.mem_cons_self) len
  | array items, worded => clear_array (clearAll items (worded_array.1 worded))
  | struct items, worded => clear_struct (clearAll items (worded_struct.1 worded))
  | unit, _ => clear_unit

theorem clearAll : ∀ items : List Constant, (∀ item ∈ items, item.Worded) →
    ∀ item ∈ items, Clear item
  | [], _ => nofun
  | item :: rest, worded => by
    rw [List.forall_mem_cons] at worded ⊢
    exact ⟨clear item worded.1, clearAll rest worded.2⟩

end

/-- Constants have the same text only when they are the same. -/
theorem text_inj {left right : Constant} (worded : left.Worded) (worded' : right.Worded) :
    left.text = right.text ↔ left = right := by
  refine ⟨fun same => ?_, congrArg text⟩
  refine (clear left worded worded' endsWord_nil endsWord_nil ?_).1
  rw [List.append_nil, List.append_nil]
  exact congrArg String.toList same

theorem isPrintable_of_bounds {c low high : Char} (above : low.val ≤ c.val) (below : c.val ≤ high.val)
    (least : 0x20 ≤ low.toNat) (most : high.toNat ≤ 0x7e) : isPrintable c = true := by
  rw [UInt32.le_iff_toNat_le] at above below
  rw [isPrintable, Bool.and_eq_true, decide_eq_true_eq, decide_eq_true_eq]
  exact ⟨Nat.le_trans least above, Nat.le_trans below most⟩

theorem isPrintable_of_isWordChar {c : Char} (plain : isWordChar c = true) : isPrintable c = true := by
  have classes : (c.isUpper || c.isLower || c.isDigit || c == '_' || c == '.') = true := plain
  simp only [Bool.or_eq_true, beq_iff_eq] at classes
  rcases classes with (((upper | lower) | digit) | rfl) | rfl
  · obtain ⟨above, below⟩ : 'A'.val ≤ c.val ∧ c.val ≤ 'Z'.val := of_decide_eq_true upper
    exact isPrintable_of_bounds above below (by decide) (by decide)
  · obtain ⟨above, below⟩ := Bool.and_eq_true_iff.1 lower
    exact isPrintable_of_bounds (of_decide_eq_true above) (of_decide_eq_true below) (by decide)
      (by decide)
  · obtain ⟨above, below⟩ := Bool.and_eq_true_iff.1 digit
    exact isPrintable_of_bounds (of_decide_eq_true above) (of_decide_eq_true below) (by decide)
      (by decide)
  · decide
  · decide

/-- Constants are written in printable ASCII, and so on one line. -/
theorem text_printable {constant : Constant} (worded : constant.Worded) :
    ∀ c ∈ constant.text.toList, isPrintable c = true := by
  intro c member
  by_contra shown
  rw [Bool.not_eq_true] at shown
  refine constant.lacks_text shown (fun name found inside => ?_) member
  rw [isPrintable_of_isWordChar ((worded name found).2 c inside)] at shown
  cases shown

/-- The texts of constants are unambiguous, printable, and hold byte strings that can be decoded. -/
theorem text_faithful {left right : Constant} (worded : left.Worded) (worded' : right.Worded) :
    (left.text = right.text ↔ left = right) ∧
      (∀ c ∈ left.text.toList, isPrintable c = true) ∧
      ∀ (content : List UInt8) (rest : List Char),
        readBytes (content.flatMap quotedByte ++ '"' :: rest) = some (content, rest) :=
  ⟨text_inj worded worded', text_printable worded, readBytes_content⟩

/-- A quote and a comma inside a string are told from the end of the string and the next item. -/
theorem text_faithful_quotes :
    (struct [slice ".str.0" 3, bytes [0x5c, 0x22, 0x2c]]).text ≠
        (struct [slice ".str.0" 3, bytes [0x5c], char ',']).text ∧
      ∀ c ∈ (struct [slice ".str.0" 3, bytes [0x5c, 0x22, 0x2c]]).text.toList,
        isPrintable c = true := by
  have faithful := @text_faithful (struct [slice ".str.0" 3, bytes [0x5c, 0x22, 0x2c]])
    (struct [slice ".str.0" 3, bytes [0x5c], char ',']) (by decide) (by decide)
  exact ⟨faithful.1.not.2 (by decide), faithful.2.1⟩

end TreeLowering.Ir.Constant
