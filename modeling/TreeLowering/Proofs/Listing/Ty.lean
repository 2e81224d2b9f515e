/-
This file shows that the text of a type can be read back up to one thing: unit and never are both
written as void. The first character of a text tells the kind of type, and a type that stands inside
another ends where no word goes on, also behind the arrow of a function type.
-/

import TreeLowering.Proofs.Listing.Line
import TreeLowering.Proofs.Listing.Separate

namespace TreeLowering.Ir.Ty

open TreeLowering.Text

/-! ### Unit in place of never -/

mutual

/-- A type with unit in place of never, everywhere inside it. -/
def voided : Ty → Ty
  | prim .never => prim .unit
  | prim found => prim found
  | ptr pointee mutable => ptr (voided pointee) mutable
  | array elem len => array (voided elem) len
  | struct name => struct name
  | slice elem => slice (voided elem)
  | func params ret => func (voidedAll params) (voided ret)
  | label => label
  | unresolved name => unresolved name

def voidedAll : List Ty → List Ty
  | [] => []
  | ty :: rest => voided ty :: voidedAll rest

end

theorem voidedAll_eq (types : List Ty) : voidedAll types = types.map voided := by
  induction types with
  | nil => rfl
  | cons ty types inductionHypothesis => rw [voidedAll, inductionHypothesis, List.map_cons]

mutual

/-- The replacement does not show in the text. -/
theorem text_voided : ∀ ty : Ty, ty.voided.text = ty.text
  | prim found => by cases found <;> rfl
  | ptr pointee false => by rw [voided, text, text, text_voided pointee]
  | ptr pointee true => by rw [voided, text, text, text_voided pointee]
  | array elem len => by rw [voided, text, text, text_voided elem]
  | struct name => rfl
  | slice elem => by rw [voided, text, text, text_voided elem]
  | func params ret => by rw [voided, text, text, text_voided ret, textAll_voidedAll params]
  | label => rfl
  | unresolved name => rfl

theorem textAll_voidedAll : ∀ types : List Ty, textAll (voidedAll types) = textAll types
  | [] => rfl
  | [ty] => text_voided ty
  | ty :: next :: rest => by
    have later := textAll_voidedAll (next :: rest)
    rw [voidedAll] at later
    simp only [voidedAll, textAll, text_voided ty, later]

end

/-! ### The first character -/

/-- What the first character of a text tells about the type. -/
inductive Form where
  | prim
  | ptr
  | array
  | struct
  | slice
  | func
  | label
  | unresolved

/-- The form of the types whose texts begin with a character, if there are any. -/
def Form.ofChar? : Char → Option Form
  | 'b' | 'c' | 'i' | 'u' | 'v' => some prim
  | 'p' => some ptr
  | '[' => some array
  | '%' => some struct
  | 's' => some slice
  | 'f' => some func
  | 'l' => some label
  | 'o' => some unresolved
  | _ => none

def form : Ty → Form
  | prim _ => .prim
  | ptr .. => .ptr
  | array .. => .array
  | struct _ => .struct
  | slice _ => .slice
  | func .. => .func
  | label => .label
  | unresolved _ => .unresolved

/-- The text of a type, character by character. -/
def letters (ty : Ty) : List Char := ty.text.toList

theorem letters_ptr (pointee : Ty) :
    letters (ptr pointee false) = 'p' :: 't' :: 'r' :: ' ' :: letters pointee := by
  simp [letters, text, String.toList_append]

theorem letters_ptrMut (pointee : Ty) : letters (ptr pointee true) =
    'p' :: 't' :: 'r' :: ' ' :: 'm' :: 'u' :: 't' :: ' ' :: letters pointee := by
  simp [letters, text, String.toList_append]

theorem letters_array (elem : Ty) (len : UInt64) : letters (array elem len) =
    '[' :: ((toString len).toList ++ ' ' :: 'x' :: ' ' :: (letters elem ++ [']'])) := by
  simp [letters, text, String.toList_append]

theorem letters_struct (name : String) : letters (struct name) = '%' :: name.toList := by
  simp [letters, text, String.toList_append]

theorem letters_slice (elem : Ty) :
    letters (slice elem) = 's' :: 'l' :: 'i' :: 'c' :: 'e' :: ' ' :: letters elem := by
  simp [letters, text, String.toList_append]

theorem letters_unresolved (name : String) : letters (unresolved name) =
    'o' :: 'p' :: 'a' :: 'q' :: 'u' :: 'e' :: ' ' :: name.toList := by
  simp [letters, text, String.toList_append]

theorem toList_textAll : ∀ types : List Ty, (textAll types).toList = commas letters types
  | [] => rfl
  | [ty] => by simp [textAll, commas, letters]
  | ty :: next :: rest => by
    have later := toList_textAll (next :: rest)
    rw [commas] at later
    simp [textAll, commas, letters, String.toList_append, later]

theorem letters_func (params : List Ty) (ret : Ty) : letters (func params ret) =
    'f' :: 'n' :: '(' :: (commas letters params ++ ')' :: ' ' :: '-' :: '>' :: ' ' :: letters ret) := by
  simp [letters, text, String.toList_append, toList_textAll]

theorem headed : Headed letters Form.ofChar? form := by
  intro ty
  cases ty with
  | prim found => cases found <;> exact ⟨_, _, rfl, rfl⟩
  | ptr pointee mutable =>
    cases mutable with
    | false => exact ⟨_, _, letters_ptr pointee, rfl⟩
    | true => exact ⟨_, _, letters_ptrMut pointee, rfl⟩
  | array elem len => exact ⟨_, _, letters_array elem len, rfl⟩
  | struct name => exact ⟨_, _, letters_struct name, rfl⟩
  | slice elem => exact ⟨_, _, letters_slice elem, rfl⟩
  | func params ret => exact ⟨_, _, letters_func params ret, rfl⟩
  | label => exact ⟨_, _, rfl, rfl⟩
  | unresolved name => exact ⟨_, _, letters_unresolved name, rfl⟩

/-! ### Reading a type back -/

/-- A type whose names are words. -/
def Worded (ty : Ty) : Prop := ∀ name ∈ ty.names, IsWord name

instance (ty : Ty) : Decidable ty.Worded := inferInstanceAs (Decidable (∀ _ ∈ _, _))

theorem worded_func {params : List Ty} {ret : Ty} :
    (func params ret).Worded ↔ (∀ ty ∈ params, ty.Worded) ∧ ret.Worded := by
  rw [Worded, names, List.forall_mem_append]
  refine and_congr_left fun _ => ⟨fun worded ty member name found => ?_, fun worded name found => ?_⟩
  · exact worded name (mem_namesAll.2 ⟨ty, member, found⟩)
  · obtain ⟨ty, member, found⟩ := mem_namesAll.1 found
    exact worded ty member name found

/-- What is written for a type can be told from what follows it, up to unit and never. -/
abbrev Clear (ty : Ty) : Prop :=
  Readable letters Worded (fun left right => left.voided = right.voided) ty

theorem isWordChar_prim (found : Prim) : ∀ c ∈ found.text.toList, isWordChar c = true := by
  refine List.all_eq_true.1 ?_
  cases found <;> decide

theorem voided_prim_of_text {found found' : Prim} (same : found.text = found'.text) :
    (prim found).voided = (prim found').voided := by
  revert same
  cases found <;> cases found' <;> decide

theorem clear_prim (found : Prim) : Clear (prim found) := by
  intro other rest rest' _ ends ends' equal
  have form := headed.form_unique equal
  cases other with
  | prim found' =>
    obtain ⟨same, left⟩ := word_unique (isWordChar_prim found) (isWordChar_prim found') ends ends' equal
    exact ⟨voided_prim_of_text (String.toList_inj.1 same), left⟩
  | _ => cases form

/-- No type begins as the word for a mutable pointer does. -/
theorem ptr_ne_ptrMut {pointee pointee' : Ty} {rest rest' : List Char} :
    letters (ptr pointee false) ++ rest ≠ letters (ptr pointee' true) ++ rest' := by
  intro equal
  obtain ⟨first, more, split, differs⟩ := headed.opens_ne (show Form.ofChar? 'm' = none from rfl) pointee
  simp only [letters_ptr, letters_ptrMut, split, List.cons_append, List.cons.injEq, true_and] at equal
  exact differs equal.1

theorem clear_ptr {pointee : Ty} (inner : Clear pointee) (mutable : Bool) :
    Clear (ptr pointee mutable) := by
  intro other rest rest' worded ends ends' equal
  have form := headed.form_unique equal
  cases other with
  | ptr pointee' mutable' =>
    have inside : pointee'.Worded := worded
    cases mutable with
    | false =>
      cases mutable' with
      | false =>
        simp only [letters_ptr, List.cons_append, List.cons.injEq, true_and] at equal
        obtain ⟨same, left⟩ := inner inside ends ends' equal
        exact ⟨congrArg (ptr · false) same, left⟩
      | true => exact absurd equal ptr_ne_ptrMut
    | true =>
      cases mutable' with
      | false => exact absurd equal.symm ptr_ne_ptrMut
      | true =>
        simp only [letters_ptrMut, List.cons_append, List.cons.injEq, true_and] at equal
        obtain ⟨same, left⟩ := inner inside ends ends' equal
        exact ⟨congrArg (ptr · true) same, left⟩
  | _ => cases form

theorem clear_array {elem : Ty} (inner : Clear elem) (len : UInt64) : Clear (array elem len) := by
  intro other rest rest' worded _ _ equal
  have form := headed.form_unique equal
  cases other with
  | array elem' len' =>
    simp only [letters_array, List.cons_append, List.append_assoc, List.cons.injEq, true_and] at equal
    obtain ⟨sameLen, afterLen⟩ := wordNumber_unique (endsWord_cons rfl) (endsWord_cons rfl) equal
    simp only [List.cons.injEq, true_and] at afterLen
    obtain ⟨sameElem, left⟩ := inner (show elem'.Worded from worded) (endsWord_cons rfl)
      (endsWord_cons rfl) afterLen
    exact ⟨congrArg₂ array sameElem sameLen, (List.cons.inj left).2⟩
  | _ => cases form

theorem clear_struct {name : String} (word : IsWord name) : Clear (struct name) := by
  intro other rest rest' worded ends ends' equal
  have form := headed.form_unique equal
  cases other with
  | struct name' =>
    simp only [letters_struct, List.cons_append, List.cons.injEq, true_and] at equal
    obtain ⟨same, left⟩ := name_unique word (worded name' List.mem_cons_self) ends ends' equal
    exact ⟨congrArg struct same, left⟩
  | _ => cases form

theorem clear_slice {elem : Ty} (inner : Clear elem) : Clear (slice elem) := by
  intro other rest rest' worded ends ends' equal
  have form := headed.form_unique equal
  cases other with
  | slice elem' =>
    simp only [letters_slice, List.cons_append, List.cons.injEq, true_and] at equal
    obtain ⟨same, left⟩ := inner (show elem'.Worded from worded) ends ends' equal
    exact ⟨congrArg slice same, left⟩
  | _ => cases form

/-- The parameters end at the bracket, the result type where the function type does. -/
theorem clear_func {params : List Ty} {ret : Ty} (each : ∀ ty ∈ params, Clear ty)
    (result : Clear ret) : Clear (func params ret) := by
  intro other rest rest' worded ends ends' equal
  have form := headed.form_unique equal
  cases other with
  | func params' ret' =>
    rw [worded_func] at worded
    simp only [letters_func, List.cons_append, List.append_assoc, List.cons.injEq, true_and] at equal
    obtain ⟨sameParams, afterParams⟩ := commas_unique rfl (by decide) (headed.opens_ne rfl) each
      worded.1 equal
    simp only [List.cons.injEq, true_and] at afterParams
    obtain ⟨sameRet, left⟩ := result worded.2 ends ends' afterParams
    have sameParams : voidedAll params = voidedAll params' := by
      rwa [voidedAll_eq, voidedAll_eq, ← List.forall₂_eq_eq_eq, List.forall₂_map_left_iff,
        List.forall₂_map_right_iff]
    exact ⟨congrArg₂ func sameParams sameRet, left⟩
  | _ => cases form

theorem clear_label : Clear label := by
  intro other rest rest' _ _ _ equal
  have form := headed.form_unique equal
  cases other with
  | label => exact ⟨rfl, List.append_cancel_left equal⟩
  | _ => cases form

theorem clear_unresolved {name : String} (word : IsWord name) : Clear (unresolved name) := by
  intro other rest rest' worded ends ends' equal
  have form := headed.form_unique equal
  cases other with
  | unresolved name' =>
    simp only [letters_unresolved, List.cons_append, List.cons.injEq, true_and] at equal
    obtain ⟨same, left⟩ := name_unique word (worded name' List.mem_cons_self) ends ends' equal
    exact ⟨congrArg unresolved same, left⟩
  | _ => cases form

mutual

/-- A type is read back from its text up to unit and never, however deep it is nested. -/
theorem clear : ∀ ty : Ty, ty.Worded → Clear ty
  | prim found, _ => clear_prim found
  | ptr pointee mutable, worded => clear_ptr (clear pointee worded) mutable
  | array elem len, worded => clear_array (clear elem worded) len
  | struct name, worded => clear_struct (worded name List.mem_cons_self)
  | slice elem, worded => clear_slice (clear elem worded)
  | func params ret, worded =>
    clear_func (clearAll params (worded_func.1 worded).1) (clear ret (worded_func.1 worded).2)
  | label, _ => clear_label
  | unresolved name, worded => clear_unresolved (worded name List.mem_cons_self)

theorem clearAll : ∀ types : List Ty, (∀ ty ∈ types, ty.Worded) → ∀ ty ∈ types, Clear ty
  | [], _ => nofun
  | ty :: rest, worded => by
    rw [List.forall_mem_cons] at worded ⊢
    exact ⟨clear ty worded.1, clearAll rest worded.2⟩

end

/-- Types have the same text exactly when they are the same with unit in place of never. -/
theorem text_eq_iff {left right : Ty} (worded : left.Worded) (worded' : right.Worded) :
    left.text = right.text ↔ left.voided = right.voided := by
  constructor
  · intro same
    refine (clear left worded worded' endsWord_nil endsWord_nil ?_).1
    rw [List.append_nil, List.append_nil]
    exact congrArg String.toList same
  · intro same
    rw [← text_voided left, same, text_voided right]

/-- Where unit stands in place of never is not shown, which function type a comma belongs to is. -/
theorem text_eq_iff_nested :
    (func [ptr (prim .never) true] (prim .unit)).text =
        (func [ptr (prim .unit) true] (prim .never)).text ∧
      (func [func [label] (prim .unit), label] (prim .unit)).text ≠
        (func [func [label, struct "S.0"] (prim .unit)] (prim .unit)).text :=
  ⟨(text_eq_iff (by decide) (by decide)).2 (by decide),
    (text_eq_iff (by decide) (by decide)).not.2 (by decide)⟩

end TreeLowering.Ir.Ty
