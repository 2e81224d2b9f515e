/-
This file says when a layout stays within the range of a word. The product behind an array stops at
the largest word, but the sums behind a struct do not: a struct is laid out just if its exact size
is a word, and otherwise the computation overflows and gives no layout. So a whole layout stays in
range just if the exact size of each struct in it is a word.
-/

import TreeLowering.Proofs.Layout.Reference

namespace TreeLowering.Ir

/-! ### Fields -/

namespace Extent

/-- The offset and the end of each field. -/
def marks (start : Nat) : List Extent → List Nat
  | [] => []
  | field :: rest =>
    let offset := ceiling start field.align
    offset :: (offset + field.size) :: marks (offset + field.size) rest

variable {start mark : Nat} {fields : List Extent}

/-- Fields end in order, the last one at the end. -/
theorem le_stop_of_mem_marks (regular : ∀ field ∈ fields, field.Regular)
    (member : mark ∈ marks start fields) : mark ≤ stop start fields := by
  induction fields generalizing start with
  | nil => cases member
  | cons field rest inductionHypothesis =>
    have others : ∀ other ∈ rest, other.Regular := fun other listed =>
      regular other (.tail _ listed)
    have further := le_stop others (ceiling start field.align + field.size)
    rcases List.mem_cons.1 member with rfl | member
    · exact (Nat.le_add_right _ _).trans further
    · rcases List.mem_cons.1 member with rfl | member
      · exact further
      · exact inductionHypothesis others member

/-- A struct is laid out within a limit just if its size stays below it. -/
theorem marks_lt_iff (regular : ∀ field ∈ fields, field.Regular) (limit : Nat) :
    (∀ number ∈ marks 0 fields ++ [(ofFields fields).size], number < limit) ↔
      (ofFields fields).size < limit := by
  constructor
  · intro below
    exact below _ (List.mem_append_right _ List.mem_cons_self)
  · intro below number member
    rcases List.mem_append.1 member with member | member
    · have ends := le_ceiling (regular_ofFields regular).positive (stop 0 fields)
      exact ((le_stop_of_mem_marks regular member).trans ends).trans_lt below
    · rwa [List.mem_singleton.1 member]

end Extent

/-! ### Types -/

namespace Module

/-- What the steps of a layout come to: the product behind each array, which stops at the largest
word, and the offsets, the ends and the size behind each struct, which have no bound here. -/
def numbers (target : Module) : (depth : Nat) → Ty → List Nat
  | depth + 1, .array elem len =>
    min ((target.extentWithin depth elem).size * len.toNat) (2 ^ 64 - 1) ::
      target.numbers depth elem
  | depth + 1, .struct called =>
    match target.structFields? called with
    | some fields =>
      fields.flatMap (target.numbers depth) ++
        (Extent.marks 0 (fields.map (target.extentWithin depth)) ++
          [(Extent.ofFields (fields.map (target.extentWithin depth))).size])
    | none => []
  | _, _ => []

/-- No step of the layout leaves the range of a word. -/
def InRange (target : Module) (depth : Nat) (ty : Ty) : Prop :=
  ∀ number ∈ target.numbers depth ty, number < 2 ^ 64

instance (target : Module) (depth : Nat) (ty : Ty) : Decidable (target.InRange depth ty) :=
  inferInstanceAs (Decidable (∀ number ∈ target.numbers depth ty, number < 2 ^ 64))

variable {target : Module} {ty : Ty} {levels depth depth' : Nat}

/-- A layout stays in range just if the structs in it do. -/
theorem inRange_iff (target : Module) (depth : Nat) (ty : Ty) :
    target.InRange depth ty ↔ target.Sized depth ty := by
  unfold InRange Sized
  induction depth generalizing ty with
  | zero => exact .rfl
  | succ depth inductionHypothesis =>
    cases ty with
    | array elem len =>
      have saturated : min ((target.extentWithin depth elem).size * len.toNat) (2 ^ 64 - 1) <
          2 ^ 64 := (min_le_right _ _).trans_lt (by decide)
      rw [numbers, structSizes, List.forall_mem_cons, ← inductionHypothesis elem]
      exact and_iff_right saturated
    | struct called =>
      rw [numbers, structSizes]
      cases target.structFields? called with
      | none => exact .rfl
      | some fields =>
        have own := Extent.marks_lt_iff (target.regular_fields depth fields) (2 ^ 64)
        rw [← List.forall_mem_singleton (p := fun size => size < 2 ^ 64)] at own
        have parts : (∀ number ∈ fields.flatMap (target.numbers depth), number < 2 ^ 64) ↔
            ∀ size ∈ fields.flatMap (target.structSizes depth), size < 2 ^ 64 := by
          rw [List.forall_mem_flatMap, List.forall_mem_flatMap]
          exact forall₂_congr fun field _ => inductionHypothesis field
        exact (List.forall_mem_append.trans (and_congr parts own)).trans
          List.forall_mem_append.symm
    | prim | ptr | func | slice | label | unresolved => exact .rfl

/-- A computation in range ends with the exact extent, and one that is not overflows. -/
theorem settles_inRange (target : Module) (depth : Nat) (ty : Ty) :
    Settles (target.layoutWithin depth ty) (target.InRange depth ty) fun layout =>
      layout.extent = target.extentWithin depth ty :=
  (target.settles_layoutWithin depth ty).mono (target.inRange_iff depth ty).symm fun _ _ => id

/-- The layout of a type depends on the layouts of what it holds inside itself. -/
theorem layoutWithin_congr (inside : ∀ part ∈ target.parts ty,
    target.layoutWithin depth part = target.layoutWithin depth' part) :
    target.layoutWithin (depth + 1) ty = target.layoutWithin (depth' + 1) ty := by
  cases ty with
  | array elem len => rw [layoutWithin, inside elem List.mem_cons_self, layoutWithin]
  | struct called =>
    rw [layoutWithin, layoutWithin]
    cases declared : target.structFields? called with
    | none => rfl
    | some fields =>
      rw [parts, declared, Option.getD_some] at inside
      exact congrArg (· >>= Layout.close) (Layout.foldlM_place_congr inside Layout.empty)
  | prim | ptr | func | slice | label | unresolved => rfl

/-- Looking deeper than the nesting goes changes nothing. -/
theorem Nested.layoutWithin_eq (nested : target.Nested levels ty) (deep : levels ≤ depth)
    (deep' : levels ≤ depth') :
    target.layoutWithin (depth + 1) ty = target.layoutWithin (depth' + 1) ty := by
  induction levels generalizing ty depth depth' with
  | zero =>
    refine layoutWithin_congr fun part member => ?_
    obtain ⟨below, zero, _⟩ := nested.below member
    cases zero
  | succ levels inductionHypothesis =>
    obtain ⟨rest, rfl⟩ := Nat.exists_eq_add_one_of_ne_zero (Nat.ne_zero_of_lt deep)
    obtain ⟨rest', rfl⟩ := Nat.exists_eq_add_one_of_ne_zero (Nat.ne_zero_of_lt deep')
    exact layoutWithin_congr fun part member => inductionHypothesis (nested part member)
      (Nat.le_of_succ_le_succ deep) (Nat.le_of_succ_le_succ deep')

/-- An array is laid out when its element is, whatever its length. -/
theorem layoutWithin_array {elem : Ty} {inner : Layout}
    (ended : target.layoutWithin depth elem = .ok inner) (len : UInt64) :
    ∃ whole, target.layoutWithin (depth + 1) (.array elem len) = .ok whole ∧
      whole.size.toNat = min (inner.size.toNat * len.toNat) (2 ^ 64 - 1) := by
  refine ⟨⟨Layout.saturatingMul inner.size len, inner.align⟩, ?_, Layout.toNat_saturatingMul ..⟩
  rw [layoutWithin, ended]
  rfl

section Struct

variable {called : String} {fields : List Ty} (declared : target.structFields? called = some fields)

include declared

/-- A struct that is laid out is at least as large as each of its fields. -/
theorem size_field_le {whole : Layout}
    (ended : target.layoutWithin (depth + 1) (.struct called) = .ok whole) {field : Ty}
    (member : field ∈ fields) :
    ∃ part, target.layoutWithin depth field = .ok part ∧ part.size ≤ whole.size := by
  obtain ⟨sized, exact⟩ := (target.settles_layoutWithin _ _).of_ok ended
  rw [extentWithin_struct declared] at exact
  obtain ⟨part, ended', exact'⟩ :=
    (target.settles_layoutWithin _ _).of_fits (((sized_struct declared depth).1 sized).1 field member)
  have within := Extent.size_le_ofFields (target.regular_fields depth fields)
    (List.mem_map_of_mem member)
  rw [← exact, ← exact'] at within
  exact ⟨part, ended', UInt64.le_iff_toNat_le.2 within⟩

/-- Where nothing is nested too deep to be laid out, a field is laid out as it is on its own. -/
theorem sizeOf_field_le (nested : target.Nested Layout.maxDepth (.struct called)) {whole : UInt64}
    (ended : target.sizeOf (.struct called) = .ok whole) {field : Ty} (member : field ∈ fields) :
    ∃ part, target.sizeOf field = .ok part ∧ part ≤ whole := by
  have inside : target.Nested 127 field := nested field (by rwa [parts, declared])
  have same : target.layout field = target.layoutWithin Layout.maxDepth field :=
    inside.layoutWithin_eq (by decide) le_rfl
  obtain ⟨layout, laid, rfl⟩ := sizeOf_eq_ok.1 ended
  obtain ⟨part, ended', within⟩ := size_field_le declared laid member
  exact ⟨part.size, sizeOf_eq_ok.2 ⟨part, same.trans ended', rfl⟩, within⟩

end Struct

/-- When a layout is computed. The computation stays in the range of a word just if the exact size
of each struct in it does; then it ends with the exact numbers, and otherwise it overflows. An array
has the product of its length and the size of its element, or the largest word. A struct that is
laid out is no smaller than any of its fields, and this can be read off the sizes of the types if no
more arrays and structs stand inside one another than are laid out. -/
theorem layout_range (target : Module) :
    (∀ depth ty,
      (target.InRange depth ty ↔ ∀ size ∈ target.structSizes depth ty, size < 2 ^ 64) ∧
      (target.layoutWithin depth ty = .error .overflow ↔ ¬ target.InRange depth ty) ∧
      (target.InRange depth ty → ∃ layout, target.layoutWithin depth ty = .ok layout ∧
        layout.extent = target.extentWithin depth ty)) ∧
    (∀ depth elem len inner, target.layoutWithin depth elem = .ok inner →
      ∃ whole, target.layoutWithin (depth + 1) (.array elem len) = .ok whole ∧
        whole.size.toNat = min (inner.size.toNat * len.toNat) (2 ^ 64 - 1)) ∧
    ∀ called fields, target.structFields? called = some fields →
      (∀ depth whole, target.layoutWithin (depth + 1) (.struct called) = .ok whole →
        ∀ field ∈ fields, ∃ part,
          target.layoutWithin depth field = .ok part ∧ part.size ≤ whole.size) ∧
      (target.Nested Layout.maxDepth (.struct called) →
        ∀ whole, target.sizeOf (.struct called) = .ok whole →
          ∀ field ∈ fields, ∃ part, target.sizeOf field = .ok part ∧ part ≤ whole) := by
  refine ⟨fun depth ty => ?_, fun _ _ len _ ended => layoutWithin_array ended len,
    fun called fields declared => ⟨fun _ _ ended _ => size_field_le declared ended,
      fun nested _ ended _ => sizeOf_field_le declared nested ended⟩⟩
  have settles := target.settles_inRange depth ty
  exact ⟨target.inRange_iff depth ty, settles.eq_overflow_iff, settles.of_fits⟩

theorem entries_range : entries.InRange (Layout.maxDepth + 1) (.struct "Entry") ∧
    entries.Nested Layout.maxDepth (.struct "Entry") ∧
    ∃ whole, entries.sizeOf (.struct "Entry") = .ok whole ∧
      ∀ field ∈ [Ty.u8, .u32, .array .u8 3],
        ∃ part, entries.sizeOf field = .ok part ∧ part ≤ whole := by
  have inRange : entries.InRange (Layout.maxDepth + 1) (.struct "Entry") := by decide +kernel
  have nested : entries.Nested Layout.maxDepth (.struct "Entry") := by decide +kernel
  obtain ⟨computed, _, structs⟩ := layout_range entries
  obtain ⟨layout, ended, _⟩ := (computed _ _).2.2 inRange
  have sized : entries.sizeOf (.struct "Entry") = .ok layout.size :=
    sizeOf_eq_ok.2 ⟨layout, ended, rfl⟩
  exact ⟨inRange, nested, layout.size, sized, (structs "Entry" _ rfl).2 nested _ sized⟩

/-- The struct `Long` has one byte more than a word can count. The struct `Ragged` stops short of a
multiple of its alignment, because the product behind its only field does. -/
def overlong : Module :=
  ((Module.empty "overlong").addType ⟨"Long", some [.array .u8 0xffffffffffffffff, .u8]⟩ rfl).addType
    ⟨"Ragged", some [.array .u32 0x4000000000000000]⟩ rfl

/-- Neither struct contains itself, and neither has a layout: the computation overflows for the one
when a field is added, for the other when the size is rounded. Their first fields have sizes. -/
theorem overlong_leaves_range :
    overlong.Nested 2 (.struct "Long") ∧ overlong.Nested 2 (.struct "Ragged") ∧
    ¬ overlong.InRange (Layout.maxDepth + 1) (.struct "Long") ∧
    ¬ overlong.InRange (Layout.maxDepth + 1) (.struct "Ragged") ∧
    overlong.sizeOf (.struct "Long") = .error .overflow ∧
    overlong.sizeOf (.struct "Ragged") = .error .overflow ∧
    overlong.sizeOf (.array .u8 0xffffffffffffffff) = .ok 0xffffffffffffffff ∧
    overlong.sizeOf (.array .u32 0x4000000000000000) = .ok 0xffffffffffffffff := by
  decide +kernel

end Module

end TreeLowering.Ir
