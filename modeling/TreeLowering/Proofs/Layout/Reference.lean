/-
This file compares the layout of a type with the layout of C. The latter is given by what it has to
be: each field stands at the least multiple of its alignment that is not before the end of the field
in front of it, and a struct ends at the least multiple of its largest alignment. Each type whose
nesting ends has exactly one such layout. It is the computed one as long as the nesting is no deeper
than the computation looks and the sizes of the type and of everything inside it fit into a word.
-/

import TreeLowering.Proofs.Layout.Place
import TreeLowering.Proofs.Tables.Module

namespace TreeLowering.Ir

/-! ### The reference -/

namespace Extent

/-- Fields stand one behind the other from `start` on, each at the least place it may have, and the
last one ends at `stop`. -/
inductive Placed : Nat → List Extent → Nat → Prop
  | nil (start : Nat) : Placed start [] start
  | cons {start offset stop : Nat} {field : Extent} {rest : List Extent}
      (least : IsLeast {offset | field.align ∣ offset ∧ start ≤ offset} offset)
      (others : Placed (offset + field.size) rest stop) : Placed start (field :: rest) stop

/-- A struct with these fields has this extent. -/
structure Encloses (extent : Extent) (fields : List Extent) : Prop where
  widest : IsGreatest {align | align = 1 ∨ ∃ field ∈ fields, align = field.align} extent.align
  least : ∃ stop, Placed 0 fields stop ∧
    IsLeast {size | extent.align ∣ size ∧ stop ≤ size} extent.size

end Extent

namespace Module

/-- The type has this extent in C. A struct takes its extent from those of its fields. -/
inductive InC (target : Module) : Ty → Extent → Prop
  | prim (prim : Prim) : InC target (.prim prim) ⟨prim.size.toNat, max prim.size.toNat 1⟩
  | ptr (pointee : Ty) (mutable : Bool) : InC target (.ptr pointee mutable) ⟨8, 8⟩
  | func (params : List Ty) (ret : Ty) : InC target (.func params ret) ⟨8, 8⟩
  | slice (elem : Ty) : InC target (.slice elem) ⟨16, 8⟩
  | array {elem : Ty} {extent : Extent} (part : InC target elem extent) (len : UInt64) :
      InC target (.array elem len) ⟨len.toNat * extent.size, extent.align⟩
  | struct {called : String} {fields : List Ty} {extents : Ty → Extent} {extent : Extent}
      (declared : target.structFields? called = some fields)
      (parts : ∀ field ∈ fields, InC target field (extents field))
      (encloses : extent.Encloses (fields.map extents)) : InC target (.struct called) extent
  | undeclared {called : String} (missing : target.structFields? called = none) :
      InC target (.struct called) ⟨0, 1⟩
  | label : InC target .label ⟨0, 1⟩
  | unresolved (called : String) : InC target (.unresolved called) ⟨0, 1⟩

/-- What a value of the type has inside itself. -/
def parts (target : Module) : Ty → List Ty
  | .array elem _ => [elem]
  | .struct called => (target.structFields? called).getD []
  | _ => []

/-- At most so many arrays and structs stand inside one another. -/
def Nested (target : Module) : Nat → Ty → Prop
  | 0, ty => target.parts ty = []
  | levels + 1, ty => ∀ part ∈ target.parts ty, target.Nested levels part

/-- A type and what stands inside it, at any depth. -/
def Inside (target : Module) : Ty → Ty → Prop :=
  Relation.ReflTransGen fun whole part => part ∈ target.parts whole

/-- The sizes that the type and everything inside it have in C are words. -/
def Fits (target : Module) (ty : Ty) : Prop :=
  ∀ part extent, target.Inside ty part → target.InC part extent → extent.size < 2 ^ 64

instance decidableNested (target : Module) : ∀ levels ty, Decidable (target.Nested levels ty)
  | 0, ty => inferInstanceAs (Decidable (target.parts ty = []))
  | levels + 1, ty =>
    have := decidableNested target levels
    inferInstanceAs (Decidable (∀ part ∈ target.parts ty, target.Nested levels part))

end Module

/-! ### Fields -/

namespace Extent

variable {start last : Nat} {fields : List Extent} {extent : Extent}

/-- The largest alignment depends on the alignments alone. -/
theorem widest_congr {parts : List Ty} {first second : Ty → Extent}
    (same : ∀ part ∈ parts, (first part).align = (second part).align) :
    widest (parts.map first) = widest (parts.map second) := by
  unfold widest
  rw [List.map_map, List.map_map]
  exact congrArg _ (List.map_congr_left same)

/-- There is one way to place fields. -/
theorem placed_iff (regular : ∀ field ∈ fields, field.Regular) :
    Placed start fields last ↔ last = stop start fields := by
  induction fields generalizing start with
  | nil =>
    constructor
    · rintro ⟨⟩
      rfl
    · rintro rfl
      exact .nil _
  | cons field rest inductionHypothesis =>
    have least := isLeast_ceiling (regular field List.mem_cons_self).positive start
    have others : ∀ other ∈ rest, other.Regular := fun other member =>
      regular other (.tail _ member)
    constructor
    · rintro ⟨⟩
      next offset least' placed =>
      rw [least'.unique least] at placed
      exact (inductionHypothesis others).1 placed
    · rintro rfl
      exact .cons least ((inductionHypothesis others).2 rfl)

/-- There is one extent for a struct. -/
theorem encloses_iff (regular : ∀ field ∈ fields, field.Regular) :
    extent.Encloses fields ↔ extent = ofFields fields := by
  have positive := (regular_ofFields regular).positive
  constructor
  · rintro ⟨greatest, last, placed, least⟩
    have align : extent.align = widest fields := greatest.unique (isGreatest_widest fields)
    rw [(placed_iff regular).1 placed, align] at least
    have size := least.unique (isLeast_ceiling positive _)
    exact Extent.mk.injEq .. ▸ ⟨size, align⟩
  · rintro rfl
    exact ⟨isGreatest_widest fields, _, (placed_iff regular).2 rfl, isLeast_ceiling positive _⟩

end Extent

/-- What is computed has the alignment of an extent, and its size if that is a word. -/
def Extent.Represents (computed extent : Extent) : Prop :=
  computed.align = extent.align ∧ (extent.size < 2 ^ 64 → computed.size = extent.size)

namespace Module

variable {target : Module} {ty : Ty} {extent extent' : Extent}

namespace InC

theorem regular (inC : target.InC ty extent) : extent.Regular := by
  induction inC with
  | prim prim => cases prim <;> unfold Extent.Regular <;> decide
  | ptr | func | slice => exact .inr (.inr rfl)
  | array _ _ inductionHypothesis => exact inductionHypothesis
  | struct _ _ encloses inductionHypothesis =>
    rw [(Extent.encloses_iff (List.forall_mem_map.2 inductionHypothesis)).1 encloses]
    exact Extent.regular_ofFields (List.forall_mem_map.2 inductionHypothesis)
  | undeclared | label | unresolved => exact .inl rfl

theorem regular_map {fields : List Ty} {extents : Ty → Extent}
    (parts : ∀ field ∈ fields, target.InC field (extents field)) :
    ∀ extent ∈ fields.map extents, extent.Regular :=
  List.forall_mem_map.2 fun field member => (parts field member).regular

/-- A type has no two extents. -/
theorem unique (inC : target.InC ty extent) (inC' : target.InC ty extent') : extent = extent' := by
  induction inC generalizing extent' with
  | prim | ptr | func | slice | label | unresolved =>
    cases inC'
    rfl
  | array _ len inductionHypothesis =>
    cases inC' with
    | array part' => rw [inductionHypothesis part']
  | @struct called fields extents extent declared parts encloses inductionHypothesis =>
    cases inC' with
    | @struct _ fields' extents' _ declared' parts' encloses' =>
      cases declared.symm.trans declared'
      have same : fields.map extents = fields.map extents' :=
        List.map_congr_left fun field member =>
          inductionHypothesis field member (parts' field member)
      rw [← same] at encloses'
      rw [(Extent.encloses_iff (regular_map parts)).1 encloses,
        (Extent.encloses_iff (regular_map parts)).1 encloses']
    | undeclared missing => cases declared.symm.trans missing
  | undeclared missing =>
    cases inC' with
    | struct declared => cases declared.symm.trans missing
    | undeclared => rfl

end InC

/-! ### Nesting -/

variable {levels depth : Nat}

/-- One level is used up by what stands inside. -/
theorem Nested.below (nested : target.Nested levels ty) {part : Ty}
    (member : part ∈ target.parts ty) :
    ∃ below, levels = below + 1 ∧ target.Nested below part := by
  cases levels with
  | zero =>
    rw [show target.parts ty = [] from nested] at member
    cases member
  | succ levels => exact ⟨levels, rfl, nested part member⟩

/-- What stands inside has a level less, and there is a level less to look through. -/
theorem Nested.inside (nested : target.Nested levels ty) (deep : levels ≤ depth) {part : Ty}
    (member : part ∈ target.parts ty) :
    ∃ below rest, depth = rest + 1 ∧ target.Nested below part ∧ below ≤ rest := by
  obtain ⟨below, rfl, nested'⟩ := nested.below member
  obtain ⟨rest, rfl⟩ := Nat.exists_eq_add_one_of_ne_zero (Nat.ne_zero_of_lt deep)
  exact ⟨below, rest, rfl, nested', Nat.le_of_succ_le_succ deep⟩

theorem represents_array {elem : Ty}
    (inside : (target.extentWithin depth elem).Represents extent) (len : UInt64) :
    (target.extentWithin (depth + 1) (.array elem len)).Represents
      ⟨len.toNat * extent.size, extent.align⟩ := by
  obtain ⟨align, size⟩ := inside
  refine ⟨align, fun fits => ?_⟩
  show min ((target.extentWithin depth elem).size * len.toNat) (2 ^ 64 - 1) =
    len.toNat * extent.size
  -- an array of no elements is exact even when its element is not
  rcases Nat.eq_zero_or_pos len.toNat with none | some
  · rw [none, Nat.mul_zero, Nat.zero_mul, Nat.zero_min]
  · have within : extent.size ≤ len.toNat * extent.size := Nat.le_mul_of_pos_left _ some
    rw [size (within.trans_lt fits), Nat.mul_comm]
    exact min_eq_left (Nat.le_sub_one_of_lt fits)

theorem represents_struct {called : String} {fields : List Ty} {extents : Ty → Extent}
    (declared : target.structFields? called = some fields)
    (parts : ∀ field ∈ fields, target.InC field (extents field))
    (inside : ∀ field ∈ fields, (target.extentWithin depth field).Represents (extents field)) :
    (target.extentWithin (depth + 1) (.struct called)).Represents
      (Extent.ofFields (fields.map extents)) := by
  rw [extentWithin_struct declared]
  constructor
  · exact Extent.widest_congr fun field member => (inside field member).1
  · intro fits
    -- no field is larger than the struct, so the sizes of the fields are exact
    have same : fields.map (target.extentWithin depth) = fields.map extents := by
      refine List.map_congr_left fun field member => ?_
      obtain ⟨align, size⟩ := inside field member
      have within := Extent.size_le_ofFields (InC.regular_map parts) (List.mem_map_of_mem member)
      exact congrArg₂ Extent.mk (size (within.trans_lt fits)) align
    rw [same]

/-- The computed extent is the one of C when it looks deep enough. -/
theorem InC.represents (inC : target.InC ty extent) (nested : target.Nested levels ty)
    (deep : levels ≤ depth) : (target.extentWithin (depth + 1) ty).Represents extent := by
  induction inC generalizing levels depth with
  | prim prim => cases prim <;> exact ⟨rfl, fun _ => rfl⟩
  | ptr | func | slice | label | unresolved => exact ⟨rfl, fun _ => rfl⟩
  | array part len inductionHypothesis =>
    obtain ⟨below, rest, rfl, nested', deep'⟩ := nested.inside deep List.mem_cons_self
    exact represents_array (inductionHypothesis nested' deep') len
  | @struct called fields extents extent declared parts encloses inductionHypothesis =>
    rw [(Extent.encloses_iff (regular_map parts)).1 encloses]
    refine represents_struct declared parts fun field member => ?_
    have member' : field ∈ target.parts (.struct called) := by rwa [Module.parts, declared]
    obtain ⟨below, rest, rfl, nested', deep'⟩ := nested.inside deep member'
    exact inductionHypothesis field member nested' deep'
  | undeclared missing =>
    rw [extentWithin, missing]
    exact ⟨rfl, fun _ => rfl⟩

/-- A type fits just if its own size does and what stands inside it fits. -/
theorem fits_iff : target.Fits ty ↔ (∀ extent, target.InC ty extent → extent.size < 2 ^ 64) ∧
    ∀ part ∈ target.parts ty, target.Fits part := by
  constructor
  · intro fits
    exact ⟨fun extent => fits ty extent .refl, fun part member inner extent inside =>
      fits inner extent (.head member inside)⟩
  · rintro ⟨own, parts⟩ inner extent inside
    rcases inside.cases_head with rfl | ⟨part, member, inside⟩
    · exact own extent
    · exact parts part member inner extent inside

/-- Where the sizes of C are words, those of the structs on the way are. -/
theorem InC.sized (inC : target.InC ty extent) (nested : target.Nested levels ty)
    (deep : levels ≤ depth) (fits : target.Fits ty) : target.Sized (depth + 1) ty := by
  induction inC generalizing levels depth with
  | prim | ptr | func | slice | label | unresolved => exact List.forall_mem_nil _
  | array part len inductionHypothesis =>
    obtain ⟨below, rest, rfl, nested', deep'⟩ := nested.inside deep List.mem_cons_self
    exact inductionHypothesis nested' deep' ((fits_iff.1 fits).2 _ List.mem_cons_self)
  | @struct called fields extents extent declared parts encloses inductionHypothesis =>
    have inC : target.InC (.struct called) extent := .struct declared parts encloses
    have own := (fits_iff.1 fits).1 extent inC
    rw [sized_struct declared, ← extentWithin_struct declared]
    refine ⟨fun field member => ?_, ((inC.represents nested deep).2 own).trans_lt own⟩
    have member' : field ∈ target.parts (.struct called) := by rwa [Module.parts, declared]
    obtain ⟨below, rest, rfl, nested', deep'⟩ := nested.inside deep member'
    exact inductionHypothesis field member nested' deep' ((fits_iff.1 fits).2 _ member')
  | undeclared missing =>
    unfold Sized
    rw [structSizes, missing]
    exact List.forall_mem_nil _

/-! ### The layout of a type -/

theorem sizeOf_eq_ok {size : UInt64} : target.sizeOf ty = .ok size ↔
    ∃ layout, target.layout ty = .ok layout ∧ layout.size = size := by
  unfold sizeOf
  cases target.layout ty <;> simp [bind, Except.bind, pure, Except.pure]

/-- The struct `Entry` has a byte, a word of four bytes and three bytes more. -/
def entries : Module :=
  (Module.empty "entries").addType ⟨"Entry", some [.u8, .u32, .array .u8 3]⟩ rfl

end Module

end TreeLowering.Ir
