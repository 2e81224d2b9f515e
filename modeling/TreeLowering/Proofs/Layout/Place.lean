/-
This file does the arithmetic of layouts over numbers without a bound. The exact extent of a type is
what its layout would be if no sum ever left the range of a word; the alignments in it are 1, 4 or
8. The words of a layout are the exact numbers as long as the exact size of each struct on the way
is a word, and otherwise the computation overflows.
-/

import Mathlib
import TreeLowering.Ir.Layout

namespace TreeLowering.Ir

/-- A size and an alignment without a bound. -/
structure Extent where
  size : Nat
  align : Nat
deriving DecidableEq, Repr, Inhabited

namespace Extent

/-- The least multiple of `align` from `bound` on. -/
def ceiling (bound align : Nat) : Nat :=
  if bound % align = 0 then bound else bound + (align - bound % align)

/-- The end of the last field, when the first one may start at `start`. -/
def stop (start : Nat) : List Extent → Nat
  | [] => start
  | field :: rest => stop (ceiling start field.align + field.size) rest

/-- The largest alignment, which is at least 1. -/
def widest (fields : List Extent) : Nat := (fields.map align).foldr max 1

/-- The extent of a struct with some fields. -/
def ofFields (fields : List Extent) : Extent :=
  ⟨ceiling (stop 0 fields) (widest fields), widest fields⟩

/-- The alignments that types have. -/
def Regular (extent : Extent) : Prop := extent.align = 1 ∨ extent.align = 4 ∨ extent.align = 8

variable {bound align : Nat} {fields : List Extent} {field extent : Extent}

/-! ### Multiples -/

theorem isLeast_ceiling (positive : 0 < align) (bound : Nat) :
    IsLeast {offset | align ∣ offset ∧ bound ≤ offset} (ceiling bound align) := by
  have split := Nat.div_add_mod bound align
  have below := Nat.mod_lt bound positive
  unfold ceiling
  split
  · next multiple =>
    exact ⟨⟨Nat.dvd_of_mod_eq_zero multiple, le_rfl⟩, fun offset within => within.2⟩
  · next rest =>
    have next : bound + (align - bound % align) = align * (bound / align + 1) := by
      rw [Nat.mul_add, Nat.mul_one]
      omega
    rw [next]
    refine ⟨⟨Nat.dvd_mul_right _ _, by omega⟩, ?_⟩
    rintro _ ⟨⟨count, rfl⟩, above⟩
    refine Nat.mul_le_mul_left align ?_
    by_contra fewer
    have fewer : align * count ≤ align * (bound / align) :=
      Nat.mul_le_mul_left align (by omega)
    omega

theorem le_ceiling (positive : 0 < align) (bound : Nat) : bound ≤ ceiling bound align :=
  (isLeast_ceiling positive bound).1.2

/-! ### Alignments -/

theorem Regular.positive (regular : extent.Regular) : 0 < extent.align := by
  rcases regular with same | same | same <;> omega

theorem regular_ofFields (regular : ∀ field ∈ fields, field.Regular) :
    (ofFields fields).Regular := by
  induction fields with
  | nil => exact .inl rfl
  | cons field rest inductionHypothesis =>
    have first := regular field List.mem_cons_self
    have others := inductionHypothesis fun other member => regular other (.tail _ member)
    have larger : (ofFields (field :: rest)).align = max field.align (ofFields rest).align := rfl
    rcases max_choice field.align (ofFields rest).align with same | same
    · rw [Regular, larger, same]
      exact first
    · rw [Regular, larger, same]
      exact others

theorem isGreatest_widest (fields : List Extent) :
    IsGreatest {align | align = 1 ∨ ∃ field ∈ fields, align = field.align} (widest fields) := by
  induction fields with
  | nil =>
    refine ⟨.inl rfl, ?_⟩
    rintro align (one | ⟨_, member, _⟩)
    · exact one.le
    · cases member
  | cons field rest inductionHypothesis =>
    obtain ⟨held, above⟩ := inductionHypothesis
    have larger : widest (field :: rest) = max field.align (widest rest) := rfl
    constructor
    · rcases max_choice field.align (widest rest) with same | same
      · exact .inr ⟨field, List.mem_cons_self, larger.trans same⟩
      · rcases held with one | ⟨other, member, largest⟩
        · exact .inl ((larger.trans same).trans one)
        · exact .inr ⟨other, .tail _ member, (larger.trans same).trans largest⟩
    · rw [larger]
      rintro align (one | ⟨other, member, rfl⟩)
      · exact (above (.inl one)).trans (le_max_right _ _)
      · rcases List.mem_cons.1 member with rfl | member
        · exact le_max_left _ _
        · exact (above (.inr ⟨other, member, rfl⟩)).trans (le_max_right _ _)

/-! ### Fields -/

theorem le_stop (regular : ∀ field ∈ fields, field.Regular) (start : Nat) :
    start ≤ stop start fields := by
  induction fields generalizing start with
  | nil => exact le_rfl
  | cons field rest inductionHypothesis =>
    have first := le_ceiling (regular field List.mem_cons_self).positive start
    have others := inductionHypothesis (fun other member => regular other (.tail _ member))
      (ceiling start field.align + field.size)
    exact (first.trans (Nat.le_add_right _ _)).trans others

/-- No field is larger than the struct. -/
theorem size_le_ofFields (regular : ∀ field ∈ fields, field.Regular) (member : field ∈ fields) :
    field.size ≤ (ofFields fields).size := by
  have within : ∀ start, field.size ≤ stop start fields := by
    intro start
    induction fields generalizing start with
    | nil => cases member
    | cons first rest inductionHypothesis =>
      have regular' : ∀ other ∈ rest, other.Regular := fun other listed =>
        regular other (.tail _ listed)
      rcases List.mem_cons.1 member with rfl | member
      · exact (Nat.le_add_left _ _).trans (le_stop regular' _)
      · exact inductionHypothesis regular' member _
  exact (within 0).trans (le_ceiling (regular_ofFields regular).positive _)

end Extent

/-! ### Words -/

/-- A computation has a result, of which `holds` is true, just if `fits` is, and overflows
otherwise. -/
def Settles {α : Type} (result : Except Trap α) (fits : Prop) (holds : α → Prop) : Prop :=
  match result with
  | .ok answer => fits ∧ holds answer
  | .error cause => cause = .overflow ∧ ¬ fits

namespace Settles

variable {α β : Type} {result : Except Trap α} {fits fits' : Prop} {holds holds' : α → Prop}

theorem mono (settles : Settles result fits holds) (same : fits ↔ fits')
    (more : ∀ answer, fits → holds answer → holds' answer) : Settles result fits' holds' := by
  cases result with
  | ok answer => exact ⟨same.1 settles.1, more answer settles.1 settles.2⟩
  | error cause => exact ⟨settles.1, mt same.2 settles.2⟩

/-- What the first step does not fit into is not reached by both. -/
theorem bind {next : α → Except Trap β} {holdsNext : β → Prop} (first : Settles result fits holds)
    (necessary : fits' → fits)
    (second : ∀ answer, fits → holds answer → Settles (next answer) fits' holdsNext) :
    Settles (result >>= next) fits' holdsNext := by
  cases result with
  | ok answer => exact second answer first.1 first.2
  | error cause => exact ⟨first.1, mt necessary first.2⟩

theorem of_fits (settles : Settles result fits holds) (fit : fits) :
    ∃ answer, result = .ok answer ∧ holds answer := by
  cases result with
  | ok answer => exact ⟨answer, rfl, settles.2⟩
  | error cause => exact absurd fit settles.2

theorem of_ok (settles : Settles result fits holds) {answer : α} (ended : result = .ok answer) :
    fits ∧ holds answer := by
  rwa [ended] at settles

theorem eq_overflow_iff (settles : Settles result fits holds) :
    result = .error .overflow ↔ ¬ fits := by
  cases result with
  | ok answer => exact ⟨nofun, absurd settles.1⟩
  | error cause => exact ⟨fun _ => settles.2, fun _ => congrArg _ settles.1⟩

end Settles

namespace Layout

/-- The numbers that the words of a layout stand for. -/
def extent (layout : Layout) : Extent := ⟨layout.size.toNat, layout.align.toNat⟩

variable {placed field : Layout}

theorem settles_checkedAdd (left right : UInt64) :
    Settles (checkedAdd left right) (left.toNat + right.toNat < 2 ^ 64) fun sum =>
      sum.toNat = left.toNat + right.toNat := by
  unfold checkedAdd
  split
  · next fits => exact ⟨fits, (UInt64.toNat_add ..).trans (Nat.mod_eq_of_lt fits)⟩
  · next large => exact ⟨rfl, large⟩

theorem settles_roundUp (regular : field.extent.Regular) (offset : UInt64) :
    Settles (roundUp offset field.align)
      (Extent.ceiling offset.toNat field.extent.align < 2 ^ 64) fun rounded =>
        rounded.toNat = Extent.ceiling offset.toNat field.extent.align := by
  have below := offset.toNat_lt
  have positive : 0 < field.align.toNat := regular.positive
  have nonzero : field.align ≠ 0 := fun zero => by
    rw [zero] at positive
    exact positive.ne' rfl
  have rest : (offset % field.align).toNat = offset.toNat % field.extent.align :=
    UInt64.toNat_mod ..
  have multiple_iff : offset % field.align = 0 ↔ offset.toNat % field.extent.align = 0 := by
    rw [← UInt64.toNat_inj, rest]
    rfl
  unfold roundUp Extent.ceiling
  rw [if_neg nonzero]
  by_cases multiple : offset.toNat % field.extent.align = 0
  · rw [if_pos (multiple_iff.2 multiple), if_pos multiple]
    exact ⟨below, rfl⟩
  · have smaller : offset % field.align ≤ field.align := by
      rw [UInt64.le_iff_toNat_le, rest]
      exact (Nat.mod_lt _ positive).le
    have gap : (field.align - offset % field.align).toNat =
        field.extent.align - offset.toNat % field.extent.align := by
      rw [UInt64.toNat_sub_of_le _ _ smaller, rest]
      rfl
    rw [if_neg (mt multiple_iff.1 multiple), if_neg multiple, ← gap]
    exact settles_checkedAdd ..

theorem toNat_max (first second : UInt64) :
    (max first second).toNat = max first.toNat second.toNat := by
  have chosen : max first second = if first ≤ second then second else first := rfl
  rcases Nat.le_total first.toNat second.toNat with ordered | ordered
  · rw [chosen, if_pos (UInt64.le_iff_toNat_le.2 ordered), max_eq_right ordered]
  · rw [chosen, max_eq_left ordered]
    split
    · next same => exact le_antisymm ordered (UInt64.le_iff_toNat_le.1 same)
    · rfl

theorem toNat_saturatingMul (left right : UInt64) :
    (saturatingMul left right).toNat = min (left.toNat * right.toNat) (2 ^ 64 - 1) := by
  unfold saturatingMul
  split
  · next fits =>
    rw [UInt64.toNat_mul, Nat.mod_eq_of_lt fits]
    omega
  · next large =>
    have largest : (0xffffffffffffffff : UInt64).toNat = 2 ^ 64 - 1 := rfl
    rw [largest]
    omega

theorem settles_place (regular : field.extent.Regular) (placed : Layout) :
    Settles (placed.place field)
      (Extent.ceiling placed.size.toNat field.extent.align + field.size.toNat < 2 ^ 64)
      fun longer => longer.extent =
        ⟨Extent.ceiling placed.size.toNat field.extent.align + field.size.toNat,
          max placed.align.toNat field.extent.align⟩ := by
  refine (settles_roundUp regular placed.size).bind (lt_of_le_of_lt (Nat.le_add_right _ _))
    fun start _ exact => ?_
  rw [← exact]
  refine (settles_checkedAdd start field.size).bind id fun stop fits sum => ?_
  exact ⟨fits, congrArg₂ Extent.mk sum (toNat_max ..)⟩

theorem settles_close (regular : placed.extent.Regular) :
    Settles placed.close (Extent.ceiling placed.size.toNat placed.extent.align < 2 ^ 64)
      fun whole => whole.extent =
        ⟨Extent.ceiling placed.size.toNat placed.extent.align, placed.extent.align⟩ :=
  (settles_roundUp regular placed.size).bind id fun _ fits exact =>
    ⟨fits, congrArg₂ Extent.mk exact rfl⟩

/-- Placing the same layouts comes to the same. -/
theorem foldlM_place_congr {fields : List Ty} {first second : Ty → Except Trap Layout}
    (same : ∀ field ∈ fields, first field = second field) (placed : Layout) :
    (fields.foldlM (fun placed field => do placed.place (← first field)) placed) =
      fields.foldlM (fun placed field => do placed.place (← second field)) placed := by
  induction fields generalizing placed with
  | nil => rfl
  | cons field rest inductionHypothesis =>
    simp only [List.foldlM_cons, same field List.mem_cons_self,
      inductionHypothesis fun other member => same other (.tail _ member)]

end Layout

/-! ### Types -/

namespace Module

/-- The exact extent of a type, read through `depth` levels of nesting. The product behind an array
stops at the largest word; what is behind a struct has no bound. -/
def extentWithin (target : Module) : (depth : Nat) → Ty → Extent
  | _ + 1, .prim prim => (Layout.ofPrim prim).extent
  | _ + 1, .ptr .. => ⟨8, 8⟩
  | _ + 1, .func .. => ⟨8, 8⟩
  | _ + 1, .slice _ => ⟨16, 8⟩
  | depth + 1, .array elem len =>
    let inner := target.extentWithin depth elem
    ⟨min (inner.size * len.toNat) (2 ^ 64 - 1), inner.align⟩
  | depth + 1, .struct called =>
    match target.structFields? called with
    | some fields => .ofFields (fields.map (target.extentWithin depth))
    | none => ⟨0, 1⟩
  | _, _ => ⟨0, 1⟩

/-- The exact sizes of the structs that are laid out on the way. -/
def structSizes (target : Module) : (depth : Nat) → Ty → List Nat
  | depth + 1, .array elem _ => target.structSizes depth elem
  | depth + 1, .struct called =>
    match target.structFields? called with
    | some fields =>
      fields.flatMap (target.structSizes depth) ++
        [(Extent.ofFields (fields.map (target.extentWithin depth))).size]
    | none => []
  | _, _ => []

/-- The exact size of each struct on the way is a word. -/
def Sized (target : Module) (depth : Nat) (ty : Ty) : Prop :=
  ∀ size ∈ target.structSizes depth ty, size < 2 ^ 64

instance (target : Module) (depth : Nat) (ty : Ty) : Decidable (target.Sized depth ty) :=
  inferInstanceAs (Decidable (∀ size ∈ target.structSizes depth ty, size < 2 ^ 64))

variable {target : Module} {called : String} {fields : List Ty}

theorem extentWithin_struct (declared : target.structFields? called = some fields) (depth : Nat) :
    target.extentWithin (depth + 1) (.struct called) =
      .ofFields (fields.map (target.extentWithin depth)) := by
  rw [extentWithin, declared]

theorem sized_struct (declared : target.structFields? called = some fields) (depth : Nat) :
    target.Sized (depth + 1) (.struct called) ↔ (∀ field ∈ fields, target.Sized depth field) ∧
      (Extent.ofFields (fields.map (target.extentWithin depth))).size < 2 ^ 64 := by
  unfold Sized
  rw [structSizes, declared]
  simp only [List.forall_mem_append, List.forall_mem_flatMap, List.forall_mem_singleton]

/-- Every alignment is 1, 4 or 8, however deep a type is read. -/
theorem regular_extentWithin (target : Module) (depth : Nat) (ty : Ty) :
    (target.extentWithin depth ty).Regular := by
  induction depth generalizing ty with
  | zero => exact .inl rfl
  | succ depth inductionHypothesis =>
    cases ty with
    | prim prim =>
      show (Layout.ofPrim prim).extent.Regular
      cases prim <;> unfold Extent.Regular <;> decide
    | ptr | func | slice => exact .inr (.inr rfl)
    | array elem len => exact inductionHypothesis elem
    | struct called =>
      cases declared : target.structFields? called with
      | none =>
        rw [extentWithin, declared]
        exact .inl rfl
      | some fields =>
        rw [extentWithin_struct declared]
        exact Extent.regular_ofFields
          (List.forall_mem_map.2 fun field _ => inductionHypothesis field)
    | label | unresolved => exact .inl rfl

theorem regular_fields (target : Module) (depth : Nat) (fields : List Ty) :
    ∀ field ∈ fields.map (target.extentWithin depth), field.Regular :=
  List.forall_mem_map.2 fun field _ => target.regular_extentWithin depth field

/-- Placing some fields takes each of them to fit, and the end of the last one. -/
theorem settles_foldlM_place {depth : Nat}
    (inside : ∀ field ∈ fields, Settles (target.layoutWithin depth field)
      (target.Sized depth field) fun layout =>
        layout.extent = target.extentWithin depth field) (placed : Layout)
    (positive : 1 ≤ placed.align.toNat) :
    Settles
      (fields.foldlM (fun placed field => do
        placed.place (← target.layoutWithin depth field)) placed)
      ((∀ field ∈ fields, target.Sized depth field) ∧
        Extent.stop placed.size.toNat (fields.map (target.extentWithin depth)) < 2 ^ 64)
      fun last => last.extent =
        ⟨Extent.stop placed.size.toNat (fields.map (target.extentWithin depth)),
          max placed.align.toNat (Extent.widest (fields.map (target.extentWithin depth)))⟩ := by
  induction fields generalizing placed with
  | nil =>
    exact ⟨⟨nofun, placed.size.toNat_lt⟩, congrArg₂ Extent.mk rfl (max_eq_left positive).symm⟩
  | cons field rest inductionHypothesis =>
    have regular := target.regular_extentWithin depth field
    have others := inductionHypothesis fun other member => inside other (.tail _ member)
    rw [List.foldlM_cons, bind_assoc]
    refine (inside field List.mem_cons_self).bind (fun fits => fits.1 field List.mem_cons_self)
      fun layout sized same => ?_
    rw [← same] at regular
    refine (Layout.settles_place regular placed).bind (fun fits => ?_) fun longer _ same' => ?_
    · refine lt_of_le_of_lt ?_ fits.2
      rw [List.map_cons, Extent.stop, ← same]
      exact Extent.le_stop (target.regular_fields depth rest) _
    · obtain ⟨size, align⟩ := Extent.mk.inj same'
      refine (others longer ?_).mono ?_ fun last _ whole => ?_
      · rw [align]
        exact positive.trans (le_max_left _ _)
      · rw [List.forall_mem_cons, and_iff_right sized, List.map_cons, Extent.stop, size, ← same]
        rfl
      · rw [whole, size, align, Nat.max_assoc, List.map_cons, Extent.stop, ← same]
        rfl

/-- The computed layout is the exact extent, as long as each struct on the way has a size that is a
word; else the computation overflows. -/
theorem settles_layoutWithin (target : Module) (depth : Nat) (ty : Ty) :
    Settles (target.layoutWithin depth ty) (target.Sized depth ty) fun layout =>
      layout.extent = target.extentWithin depth ty := by
  induction depth generalizing ty with
  | zero => exact ⟨nofun, rfl⟩
  | succ depth inductionHypothesis =>
    cases ty with
    | array elem len =>
      refine (inductionHypothesis elem).bind id fun inner sized same => ?_
      obtain ⟨size, align⟩ := Extent.mk.inj same
      refine ⟨sized, congrArg₂ Extent.mk ?_ align⟩
      rw [Layout.toNat_saturatingMul, size]
    | struct called =>
      cases declared : target.structFields? called with
      | none =>
        unfold Sized
        rw [layoutWithin, declared, structSizes, declared, extentWithin, declared]
        exact ⟨nofun, rfl⟩
      | some fields =>
        have regular := Extent.regular_ofFields (target.regular_fields depth fields)
        have positive := (Extent.isGreatest_widest (fields.map (target.extentWithin depth))).2
          (.inl rfl)
        rw [layoutWithin, declared, sized_struct declared, extentWithin_struct declared]
        refine (settles_foldlM_place (fun field _ => inductionHypothesis field) Layout.empty
          le_rfl).bind (fun fits => ⟨fits.1, ?_⟩) fun placed fits same => ?_
        · exact lt_of_le_of_lt (Extent.le_ceiling regular.positive _) fits.2
        · have same : placed.extent = ⟨Extent.stop 0 (fields.map (target.extentWithin depth)),
              Extent.widest (fields.map (target.extentWithin depth))⟩ :=
            same.trans (congrArg₂ Extent.mk rfl (max_eq_right positive))
          obtain ⟨size, align⟩ := Extent.mk.inj same
          refine (@Layout.settles_close placed (same ▸ regular)).mono ?_
            fun whole _ exact => ?_
          · rw [and_iff_right fits.1, same, size]
            rfl
          · rw [exact, same, size]
            rfl
    | prim | ptr | func | slice | label | unresolved => exact ⟨nofun, rfl⟩

end Module

end TreeLowering.Ir
