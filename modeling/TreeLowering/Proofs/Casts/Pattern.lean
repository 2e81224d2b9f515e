/-
This file says what casts between scalars compute. A scalar is a number of its type, and it is held as
a bit pattern as long as the type, with negative numbers in two's complement. An opcode cuts a pattern,
fills it up or keeps it. The opcode that lowering chooses leads from the pattern of any number of the
first type to the pattern of that number wrapped to the second type. Truth values fill a byte here,
as they do in memory.
-/

import Mathlib.Data.Int.ModEq
import TreeLowering.Lowering.Conversion

namespace TreeLowering.Ir

open Lowering

/-! ### Bits of a number -/

section Bits

variable {width short long : Nat} {number other : Int}

/-- The bits of a number tell it apart up to the multiples of what they can count. -/
theorem ofInt_congr (same : number ≡ other [ZMOD 2 ^ width]) :
    BitVec.ofInt width number = BitVec.ofInt width other := by
  have same' : number % ((2 ^ width : Nat) : Int) = other % ((2 ^ width : Nat) : Int) := by
    rwa [Nat.cast_pow, Nat.cast_ofNat]
  exact BitVec.eq_of_toNat_eq (by rw [BitVec.toNat_ofInt, BitVec.toNat_ofInt, same'])

/-- The low bits of a pattern only depend on the number. -/
theorem setWidth_ofInt (less : short ≤ long) (number : Int) :
    (BitVec.ofInt long number).setWidth short = .ofInt short number := by
  rw [← BitVec.signExtend_eq_setWidth_of_le _ less]
  refine BitVec.eq_of_toInt_eq ?_
  rw [BitVec.toInt_signExtend, Nat.min_eq_left less, BitVec.toInt_ofInt, BitVec.toInt_ofInt,
    Int.bmod_bmod_of_dvd (Nat.pow_dvd_pow 2 less)]

/-- Zeros on top leave a number without sign as it is. -/
theorem setWidth_ofInt_of_bounds (less : short ≤ long) (least : 0 ≤ number)
    (most : number < 2 ^ short) :
    (BitVec.ofInt short number).setWidth long = .ofInt long number := by
  obtain ⟨count, rfl⟩ := Int.eq_ofNat_of_zero_le least
  rw [BitVec.ofInt_natCast, BitVec.ofInt_natCast, BitVec.setWidth_ofNat_of_le_of_lt less]
  exact_mod_cast most

end Bits

/-! ### Numbers -/

namespace Prim

/-- Size in bits. -/
def bitSize (prim : Prim) : Nat := 8 * prim.size.toNat

/-- The numbers of a type. A truth value is zero or one, and a type without content has none. -/
def Represents (prim : Prim) (number : Int) : Prop :=
  match prim with
  | bool => number = 0 ∨ number = 1
  | i32 | isize => -2 ^ (prim.bitSize - 1) ≤ number ∧ number < 2 ^ (prim.bitSize - 1)
  | char | u32 | usize | u8 => 0 ≤ number ∧ number < 2 ^ prim.bitSize
  | unit | never => False

instance (prim : Prim) (number : Int) : Decidable (prim.Represents number) :=
  match prim with
  | bool => inferInstanceAs (Decidable (number = 0 ∨ number = 1))
  | i32 => inferInstanceAs (Decidable (-2 ^ 31 ≤ number ∧ number < 2 ^ 31))
  | isize => inferInstanceAs (Decidable (-2 ^ 63 ≤ number ∧ number < 2 ^ 63))
  | char | u32 => inferInstanceAs (Decidable (0 ≤ number ∧ number < 2 ^ 32))
  | usize => inferInstanceAs (Decidable (0 ≤ number ∧ number < 2 ^ 64))
  | u8 => inferInstanceAs (Decidable (0 ≤ number ∧ number < 2 ^ 8))
  | unit | never => inferInstanceAs (Decidable False)

/-- What remains of a number in an integer type that it need not fit into. -/
def wrap (prim : Prim) (number : Int) : Int :=
  if prim.isSigned then number.bmod (2 ^ prim.bitSize) else number % 2 ^ prim.bitSize

variable {prim : Prim} {number other : Int}

theorem isVoid_of_integer (integer : prim.isInteger = true) : prim.isVoid = false := by
  cases prim <;> first | rfl | cases integer

theorem represents_iff_of_signed (signed : prim.isSigned = true) : prim.Represents number ↔
    -2 ^ (prim.bitSize - 1) ≤ number ∧ number < 2 ^ (prim.bitSize - 1) := by
  cases prim <;> first | exact Iff.rfl | cases signed

theorem represents_iff_of_unsigned (integer : prim.isInteger = true)
    (unsigned : prim.isSigned = false) :
    prim.Represents number ↔ 0 ≤ number ∧ number < 2 ^ prim.bitSize := by
  cases prim <;> first | cases integer; done | cases unsigned; done | exact Iff.rfl

/-- Without a sign, numbers are counted from zero. -/
theorem Represents.bounds (represented : prim.Represents number) (unsigned : prim.isSigned = false) :
    0 ≤ number ∧ number < 2 ^ prim.bitSize := by
  cases prim with
  | bool => rcases represented with rfl | rfl <;> decide
  | i32 | isize => cases unsigned
  | unit | never => exact represented.elim
  | char | u32 | usize | u8 => exact represented

theorem wrap_of_signed (signed : prim.isSigned = true) (number : Int) :
    prim.wrap number = (BitVec.ofInt prim.bitSize number).toInt := by
  rw [wrap, if_pos signed, BitVec.toInt_ofInt]

theorem wrap_of_unsigned (unsigned : prim.isSigned = false) (number : Int) :
    prim.wrap number = number % 2 ^ prim.bitSize := by
  rw [wrap, unsigned]
  rfl

theorem wrap_modEq (prim : Prim) (number : Int) :
    prim.wrap number ≡ number [ZMOD 2 ^ prim.bitSize] := by
  unfold wrap
  split
  · have same := @Int.bmod_emod number (2 ^ prim.bitSize)
    rwa [Nat.cast_pow, Nat.cast_ofNat] at same
  · exact Int.mod_modEq number _

theorem represents_wrap (integer : prim.isInteger = true) (number : Int) :
    prim.Represents (prim.wrap number) := by
  cases signed : prim.isSigned with
  | false =>
    have positive : (0 : Int) < 2 ^ prim.bitSize := Int.pow_pos (by decide)
    rw [represents_iff_of_unsigned integer signed, wrap_of_unsigned signed]
    exact ⟨Int.emod_nonneg _ positive.ne', Int.emod_lt_of_pos _ positive⟩
  | true =>
    rw [represents_iff_of_signed signed, wrap_of_signed signed]
    exact ⟨BitVec.le_toInt _, BitVec.toInt_lt⟩

/-- A number that a type has is left as it is. -/
theorem wrap_of_represents (represented : prim.Represents number) : prim.wrap number = number := by
  cases signed : prim.isSigned with
  | false =>
    obtain ⟨least, most⟩ := represented.bounds signed
    rw [wrap_of_unsigned signed, Int.emod_eq_of_lt least most]
  | true =>
    have wide : 0 < prim.bitSize := by cases prim <;> first | decide | cases signed
    obtain ⟨least, most⟩ := (represents_iff_of_signed signed).1 represented
    rw [wrap_of_signed signed, BitVec.toInt_ofInt_eq_self wide least most]

theorem wrap_congr (same : number ≡ other [ZMOD 2 ^ prim.bitSize]) :
    prim.wrap number = prim.wrap other := by
  cases signed : prim.isSigned with
  | false => rw [wrap_of_unsigned signed, wrap_of_unsigned signed, same]
  | true => rw [wrap_of_signed signed, wrap_of_signed signed, ofInt_congr same]

/-- What remains of a number is the one number of the type that differs from it by a multiple of what
the type can tell apart. -/
theorem wrap_eq_iff (integer : prim.isInteger = true) : prim.wrap number = other ↔
    prim.Represents other ∧ other ≡ number [ZMOD 2 ^ prim.bitSize] := by
  constructor
  · rintro rfl
    exact ⟨represents_wrap integer number, wrap_modEq prim number⟩
  · rintro ⟨represented, same⟩
    rw [← wrap_congr same, wrap_of_represents represented]

end Prim

/-! ### Patterns -/

/-- Bits that are held somewhere. -/
structure Pattern where
  width : Nat
  bits : BitVec width
deriving DecidableEq

/-- How a number is held as a scalar of the type. -/
def Prim.pattern (prim : Prim) (number : Int) : Pattern := ⟨prim.bitSize, .ofInt _ number⟩

/-- What a cast makes of a pattern; an opcode that cannot yield so many bits of it yields nothing. -/
def CastKind.result? (kind : CastKind) (width : Nat) (pattern : Pattern) : Option Pattern :=
  match kind with
  | bitcast => if pattern.width = width then some pattern else none
  | trunc => if width < pattern.width then some ⟨width, pattern.bits.setWidth width⟩ else none
  | zext => if pattern.width < width then some ⟨width, pattern.bits.setWidth width⟩ else none
  | sext => if pattern.width < width then some ⟨width, pattern.bits.signExtend width⟩ else none

section Patterns

variable {found wanted : Prim} {number : Int}

theorem Prim.pattern_wrap (prim : Prim) (number : Int) :
    prim.pattern (prim.wrap number) = prim.pattern number :=
  congrArg (Pattern.mk prim.bitSize) (ofInt_congr (wrap_modEq prim number))

theorem Prim.bitSize_lt_iff : found.bitSize < wanted.bitSize ↔ found.size < wanted.size := by
  rw [UInt64.lt_iff_toNat_lt, bitSize, bitSize]
  omega

theorem result?_trunc (less : wanted.bitSize < found.bitSize) (number : Int) :
    CastKind.trunc.result? wanted.bitSize (found.pattern number) = some (wanted.pattern number) := by
  rw [CastKind.result?, Prim.pattern, if_pos less, setWidth_ofInt less.le, Prim.pattern]

/-- Filling up with the sign keeps the numbers of a signed type. -/
theorem result?_sext (less : found.bitSize < wanted.bitSize) (signed : found.isSigned = true)
    (represented : found.Represents number) :
    CastKind.sext.result? wanted.bitSize (found.pattern number) = some (wanted.pattern number) := by
  rw [CastKind.result?, Prim.pattern, if_pos less, BitVec.signExtend, ← Prim.wrap_of_signed signed,
    Prim.wrap_of_represents represented, Prim.pattern]

/-- Filling up with zeros keeps the numbers of an unsigned type. -/
theorem result?_zext (less : found.bitSize < wanted.bitSize) (unsigned : found.isSigned = false)
    (represented : found.Represents number) :
    CastKind.zext.result? wanted.bitSize (found.pattern number) = some (wanted.pattern number) := by
  obtain ⟨least, most⟩ := represented.bounds unsigned
  rw [CastKind.result?, Prim.pattern, if_pos less, setWidth_ofInt_of_bounds less.le least most,
    Prim.pattern]

theorem result?_bitcast (same : found.bitSize = wanted.bitSize) (number : Int) :
    CastKind.bitcast.result? wanted.bitSize (found.pattern number) =
      some (wanted.pattern number) := by
  rw [CastKind.result?, Prim.pattern, if_pos same, same, Prim.pattern]

/-- The opcode that is chosen by the sizes and the sign of the first type leads from every number of
that type to what remains of it in the second type. -/
theorem result?_scalarCast (represented : found.Represents number) (wanted : Prim) :
    (scalarCast found wanted).result? wanted.bitSize (found.pattern number) =
      some (wanted.pattern (wanted.wrap number)) := by
  rw [Prim.pattern_wrap]
  unfold scalarCast
  split_ifs with shorter longer signed
  · exact result?_trunc (Prim.bitSize_lt_iff.2 shorter) number
  · exact result?_sext (Prim.bitSize_lt_iff.2 longer) signed represented
  · exact result?_zext (Prim.bitSize_lt_iff.2 longer) (Bool.not_eq_true _ ▸ signed) represented
  · refine result?_bitcast ?_ number
    rw [← Prim.bitSize_lt_iff] at shorter longer
    omega

end Patterns

/-! ### Instructions -/

/-- What the operands of a function hold. -/
abbrev Held := Value → Option Pattern

/-- Carries out a cast to a scalar. -/
def Instruction.convert? (inst : Instruction) (held : Held) : Option Held :=
  match inst.op, inst.ty with
  | .cast kind value, .prim prim => do
    let pattern ← held value
    let converted ← kind.result? prim.bitSize pattern
    return fun operand => if operand = inst.result then some converted else held operand
  | _, _ => none

/-- Carries out casts in order. -/
def convertAll? : List Instruction → Held → Option Held
  | [], held => some held
  | inst :: rest, held => do convertAll? rest (← inst.convert? held)

theorem convertAll?_append (first second : List Instruction) (held : Held) :
    convertAll? (first ++ second) held = (convertAll? first held).bind (convertAll? second) := by
  induction first generalizing held with
  | nil => rfl
  | cons inst first inductionHypothesis =>
    simp only [List.cons_append, convertAll?, inductionHypothesis, Option.bind_eq_bind,
      Option.bind_assoc]

/-- The cast that is emitted for two scalar types puts what remains of the number into its result. -/
theorem Instruction.convert?_cast {name : ValueName} {value : Value} {found : Prim} {number : Int}
    {held : Held} (represented : found.Represents number)
    (holds : held value = some (found.pattern number)) (wanted : Prim) :
    ∃ held', Instruction.convert? ⟨name, .prim wanted, .cast (scalarCast found wanted) value⟩ held =
        some held' ∧
      held' (.reg name (.prim wanted)) = some (wanted.pattern (wanted.wrap number)) := by
  have yielded := result?_scalarCast represented wanted
  refine ⟨fun operand => if operand = .reg name (.prim wanted) then
    some (wanted.pattern (wanted.wrap number)) else held operand, ?_, if_pos rfl⟩
  simp only [convert?, holds, yielded, Option.bind_eq_bind, Option.bind_some]
  rfl

end TreeLowering.Ir
