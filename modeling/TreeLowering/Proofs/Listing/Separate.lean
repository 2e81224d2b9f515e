/-
This file is about texts that are read from left to right. What is written for an item can be told
from what follows it, as long as that does not go on with a word: then equal texts stand for equal
items and have equal rests. Words and numbers are such texts, and so are items with commas between
them, up to the bracket behind the last one.
-/

import Mathlib.Data.List.Forall2

namespace TreeLowering.Text

/-! ### Words -/

/-- The characters of words: ASCII letters and digits, the underscore and the dot. -/
def isWordChar (c : Char) : Bool := c.isAlphanum || c == '_' || c == '.'

/-- A text that is one word. -/
def IsWord (text : String) : Prop := text ≠ "" ∧ ∀ c ∈ text.toList, isWordChar c = true

instance (text : String) : Decidable (IsWord text) :=
  decidable_of_iff (text ≠ "" ∧ text.toList.all isWordChar = true)
    (and_congr_right fun _ => List.all_eq_true)

/-- Whether a word that stands before a text is over there. -/
def EndsWord (rest : List Char) : Prop := ∀ c, rest.head? = some c → isWordChar c = false

theorem endsWord_nil : EndsWord [] := nofun

theorem endsWord_cons {c : Char} {rest : List Char} (foreign : isWordChar c = false) :
    EndsWord (c :: rest) := by
  intro first same
  cases same
  exact foreign

section Words

variable {word word' rest rest' : List Char}

/-- A word reaches as far as it can. -/
theorem word_unique (plain : ∀ c ∈ word, isWordChar c = true)
    (plain' : ∀ c ∈ word', isWordChar c = true) (ends : EndsWord rest) (ends' : EndsWord rest')
    (same : word ++ rest = word' ++ rest') : word = word' ∧ rest = rest' := by
  induction word generalizing word' with
  | nil =>
    cases word' with
    | nil => exact ⟨rfl, same⟩
    | cons c word' =>
      rw [List.nil_append] at same
      cases (ends c (by rw [same]; rfl)).symm.trans (plain' c List.mem_cons_self)
  | cons c word inductionHypothesis =>
    cases word' with
    | nil =>
      rw [List.nil_append] at same
      cases (ends' c (by rw [← same]; rfl)).symm.trans (plain c List.mem_cons_self)
    | cons c' word' =>
      obtain ⟨rfl, tails⟩ := List.cons.inj same
      obtain ⟨rfl, left⟩ := inductionHypothesis (fun c member => plain c (List.mem_cons_of_mem _ member))
        (fun c member => plain' c (List.mem_cons_of_mem _ member)) tails
      exact ⟨rfl, left⟩

theorem name_unique {name name' : String} (plain : IsWord name) (plain' : IsWord name')
    (ends : EndsWord rest) (ends' : EndsWord rest')
    (same : name.toList ++ rest = name'.toList ++ rest') : name = name' ∧ rest = rest' := by
  obtain ⟨equal, left⟩ := word_unique plain.2 plain'.2 ends ends' same
  exact ⟨String.toList_inj.1 equal, left⟩

end Words

/-! ### Numbers -/

/-- The number that a digit stands for, in a base up to sixteen. -/
def digitValue (c : Char) : Nat :=
  if c.isDigit then c.toNat - 0x30 else if c.isUpper then c.toNat - 0x37 else c.toNat - 0x57

/-- The number that digits stand for. -/
def readDigits (base : Nat) (digits : List Char) : Nat :=
  digits.foldl (fun number digit => base * number + digitValue digit) 0

theorem digitValue_digitChar : ∀ digit < 16, digitValue (Nat.digitChar digit) = digit := by
  decide

/-- The digits of a number can be read back. -/
theorem readDigits_toDigits {base : Nat} (large : 1 < base) (known : base ≤ 16) (number : Nat) :
    readDigits base (Nat.toDigits base number) = number := by
  induction number using Nat.strongRecOn with
  | ind number inductionHypothesis =>
    rcases Nat.lt_or_ge number base with small | many
    · rw [Nat.toDigits_of_lt_base small, readDigits, List.foldl_cons, List.foldl_nil,
        digitValue_digitChar number (by omega), Nat.mul_zero, Nat.zero_add]
    · have less := Nat.div_lt_self (show 0 < number by omega) large
      have digit := Nat.mod_lt number (show 0 < base by omega)
      have before := inductionHypothesis _ less
      unfold readDigits at before ⊢
      rw [Nat.toDigits_of_base_le large many, List.foldl_append, before, List.foldl_cons,
        List.foldl_nil, digitValue_digitChar _ (by omega), Nat.div_add_mod]

theorem isWordChar_of_digit {number : Nat} {c : Char} (member : c ∈ Nat.toDigits 10 number) :
    isWordChar c = true := by
  have digit := Nat.isDigit_of_mem_toDigits (by decide) (by decide) member
  simp [isWordChar, Char.isAlphanum, digit]

section Numbers

variable {rest rest' : List Char}

theorem number_unique {number number' : Nat} (ends : EndsWord rest) (ends' : EndsWord rest')
    (same : Nat.toDigits 10 number ++ rest = Nat.toDigits 10 number' ++ rest') :
    number = number' ∧ rest = rest' := by
  obtain ⟨digits, left⟩ := word_unique (fun _ => isWordChar_of_digit) (fun _ => isWordChar_of_digit)
    ends ends' same
  have equal := congrArg (readDigits 10) digits
  rw [readDigits_toDigits (by decide) (by decide), readDigits_toDigits (by decide) (by decide)] at equal
  exact ⟨equal, left⟩

theorem toList_word (number : UInt64) :
    (toString number).toList = Nat.toDigits 10 number.toNat := by
  show (toString number.toNat).toList = _
  rw [Nat.toString_eq_repr, Nat.toList_repr]

theorem wordNumber_unique {number number' : UInt64} (ends : EndsWord rest) (ends' : EndsWord rest')
    (same : (toString number).toList ++ rest = (toString number').toList ++ rest') :
    number = number' ∧ rest = rest' := by
  rw [toList_word, toList_word] at same
  obtain ⟨equal, left⟩ := number_unique ends ends' same
  exact ⟨UInt64.toNat_inj.1 equal, left⟩

theorem toList_ofNat (number : Nat) : (toString (Int.ofNat number)).toList = Nat.toDigits 10 number :=
  Nat.toList_repr

theorem toList_negSucc (number : Nat) :
    (toString (Int.negSucc number)).toList = '-' :: Nat.toDigits 10 (number + 1) := by
  show ("-" ++ (number + 1).repr).toList = _
  rw [String.toList_append, Nat.toList_repr]
  rfl

theorem exists_digit (number : Nat) :
    ∃ c digits, Nat.toDigits 10 number = c :: digits ∧ c.isDigit = true := by
  have each := fun c => Nat.isDigit_of_mem_toDigits (b := 10) (n := number) (c := c) (by decide)
    (by decide)
  cases split : Nat.toDigits 10 number with
  | nil => exact absurd split Nat.toDigits_ne_nil
  | cons c digits => exact ⟨c, digits, rfl, each c (by rw [split]; exact List.mem_cons_self)⟩

theorem int_unique {value value' : Int} (ends : EndsWord rest) (ends' : EndsWord rest')
    (same : (toString value).toList ++ rest = (toString value').toList ++ rest') :
    value = value' ∧ rest = rest' := by
  have signed : ∀ {number number' : Nat} {rest rest' : List Char},
      '-' :: Nat.toDigits 10 (number + 1) ++ rest ≠ Nat.toDigits 10 number' ++ rest' := by
    intro number number' rest rest' same
    obtain ⟨c, digits, split, digit⟩ := exists_digit number'
    rw [split] at same
    cases (List.cons.inj same).1
    cases digit
  cases value with
  | ofNat number =>
    cases value' with
    | ofNat number' =>
      rw [toList_ofNat, toList_ofNat] at same
      obtain ⟨rfl, left⟩ := number_unique ends ends' same
      exact ⟨rfl, left⟩
    | negSucc number' =>
      rw [toList_ofNat, toList_negSucc] at same
      exact absurd same.symm signed
  | negSucc number =>
    cases value' with
    | ofNat number' =>
      rw [toList_negSucc, toList_ofNat] at same
      exact absurd same signed
    | negSucc number' =>
      rw [toList_negSucc, toList_negSucc] at same
      obtain ⟨equal, left⟩ := number_unique ends ends' (List.cons.inj same).2
      cases equal
      exact ⟨rfl, left⟩

end Numbers

/-! ### First characters -/

section Headed

variable {α Form : Type} {write : α → List Char} {ofChar? : Char → Option Form} {form : α → Form}

variable (write ofChar? form) in
/-- The first character of what is written for an item tells its form. -/
def Headed : Prop :=
  ∀ item, ∃ first more, write item = first :: more ∧ ofChar? first = some (form item)

theorem Headed.form_unique (headed : Headed write ofChar? form) {item other : α}
    {rest rest' : List Char} (equal : write item ++ rest = write other ++ rest') :
    form item = form other := by
  obtain ⟨first, more, split, known⟩ := headed item
  obtain ⟨first', more', split', known'⟩ := headed other
  rw [split, split'] at equal
  cases (List.cons.inj equal).1
  exact Option.some.inj (known.symm.trans known')

/-- No item begins with a character that stands for no form. -/
theorem Headed.opens_ne (headed : Headed write ofChar? form) {foreign : Char}
    (none : ofChar? foreign = none) (item : α) :
    ∃ first more, write item = first :: more ∧ first ≠ foreign := by
  obtain ⟨first, more, split, known⟩ := headed item
  refine ⟨first, more, split, ?_⟩
  rintro rfl
  cases none.symm.trans known

end Headed

/-! ### Items -/

section Items

variable {α : Type} (write : α → List Char) (allowed : α → Prop) (same : α → α → Prop)

/-- What is written for `item` can be told from what follows, and no other item is written so. -/
def Readable (item : α) : Prop :=
  ∀ ⦃other rest rest'⦄, allowed other → EndsWord rest → EndsWord rest' →
    write item ++ rest = write other ++ rest' → same item other ∧ rest = rest'

/-- Items one after another, with a comma and a blank between each two. -/
def commas : List α → List Char
  | [] => []
  | item :: rest => write item ++ rest.flatMap fun next => ',' :: ' ' :: write next

variable {write allowed same} {items others : List α} {rest rest' : List Char} {close : Char}

theorem endsWord_tail (foreign : isWordChar close = false) (items : List α) (rest : List Char) :
    EndsWord ((items.flatMap fun next => ',' :: ' ' :: write next) ++ close :: rest) := by
  cases items with
  | nil => exact endsWord_cons foreign
  | cons item items => exact endsWord_cons rfl

theorem tail_unique (foreign : isWordChar close = false) (noComma : close ≠ ',')
    (each : ∀ item ∈ items, Readable write allowed same item) (fine : ∀ other ∈ others, allowed other)
    (equal : (items.flatMap fun next => ',' :: ' ' :: write next) ++ close :: rest =
      (others.flatMap fun next => ',' :: ' ' :: write next) ++ close :: rest') :
    List.Forall₂ same items others ∧ rest = rest' := by
  induction items generalizing others with
  | nil =>
    cases others with
    | nil => exact ⟨.nil, (List.cons.inj equal).2⟩
    | cons other others => exact absurd (List.cons.inj equal).1 noComma
  | cons item items inductionHypothesis =>
    cases others with
    | nil => exact absurd (List.cons.inj equal).1.symm noComma
    | cons other others =>
      rw [List.forall_mem_cons] at each fine
      simp only [List.flatMap_cons, List.cons_append, List.append_assoc, List.cons.injEq,
        true_and] at equal
      obtain ⟨first, equal⟩ := each.1 fine.1 (endsWord_tail foreign items rest)
        (endsWord_tail foreign others rest') equal
      obtain ⟨others, left⟩ := inductionHypothesis each.2 fine.2 equal
      exact ⟨.cons first others, left⟩

/-- A list is read up to the character that closes it, which begins no item. -/
theorem commas_unique (foreign : isWordChar close = false) (noComma : close ≠ ',')
    (opens : ∀ item, ∃ first more, write item = first :: more ∧ first ≠ close)
    (each : ∀ item ∈ items, Readable write allowed same item) (fine : ∀ other ∈ others, allowed other)
    (equal : commas write items ++ close :: rest = commas write others ++ close :: rest') :
    List.Forall₂ same items others ∧ rest = rest' := by
  cases items with
  | nil =>
    cases others with
    | nil => exact ⟨.nil, (List.cons.inj equal).2⟩
    | cons other others =>
      obtain ⟨first, more, split, differs⟩ := opens other
      rw [commas, commas, split] at equal
      exact absurd (List.cons.inj equal).1.symm differs
  | cons item items =>
    cases others with
    | nil =>
      obtain ⟨first, more, split, differs⟩ := opens item
      rw [commas, commas, split] at equal
      exact absurd (List.cons.inj equal).1 differs
    | cons other others =>
      rw [List.forall_mem_cons] at each fine
      rw [commas, commas, List.append_assoc, List.append_assoc] at equal
      obtain ⟨first, equal⟩ := each.1 fine.1 (endsWord_tail foreign items rest)
        (endsWord_tail foreign others rest') equal
      obtain ⟨rest, left⟩ := tail_unique foreign noComma each.2 fine.2 equal
      exact ⟨.cons first rest, left⟩

end Items

end TreeLowering.Text
