/-
This file defines the values that a program of the source language computes with, and its operators
on them. A scalar is a bit pattern of the width of its type, and an operator works on the number the
pattern stands for: the result is computed exactly and then wrapped to the width. The opcodes that
lowering chooses compute the same patterns.
-/

import TreeLowering.Lowering.Operator
import TreeLowering.Proofs.Machine.Step
import Mathlib.Tactic.SplitIfs

namespace TreeLowering.Tree

open TreeLowering.Ir

/-- A value of a primitive type. -/
structure Scalar where
  prim : Prim
  bits : BitVec prim.width
deriving DecidableEq

namespace Scalar

/-- The number wrapped to the width of the type. -/
def ofInt (prim : Prim) (value : Int) : Scalar := ⟨prim, BitVec.ofInt prim.width value⟩

def bool (truth : Bool) : Scalar := ⟨.bool, BitVec.ofBool truth⟩

def unit : Scalar := ⟨.unit, 0⟩

/-- The number a scalar stands for; only signed types have negative ones. -/
def value (scalar : Scalar) : Int :=
  if scalar.prim.isSigned then scalar.bits.toInt else scalar.bits.toNat

/-- What a register holds that holds the scalar. -/
def datum (scalar : Scalar) : Datum := .word scalar.prim.width scalar.bits

/-- What a function returns that returns the scalar; unit is returned as nothing. -/
def returned (scalar : Scalar) : Option Datum :=
  if scalar.prim.isVoid then none else some scalar.datum

end Scalar

/-! ### Operators -/

/-- What a comparison says about two numbers; other operators say nothing. -/
def BinaryOp.test? (op : BinaryOp) (left right : Int) : Option Bool :=
  match op with
  | eq => some (left = right)
  | notEq => some (left ≠ right)
  | lt => some (left < right)
  | ltEq => some (left ≤ right)
  | gt => some (right < left)
  | gtEq => some (right ≤ left)
  | _ => none

/-- The exact result of an arithmetic or bitwise operator, if there is one. Division rounds toward
zero, a right shift rounds down, and there is no shift by the width or more. -/
def BinaryOp.result? (op : BinaryOp) (left right : Scalar) : Option Int :=
  let within := 0 ≤ right.value ∧ right.value < left.prim.width
  match op with
  | add => some (left.value + right.value)
  | sub => some (left.value - right.value)
  | mul => some (left.value * right.value)
  | div => if right.value = 0 then none else some (left.value.tdiv right.value)
  | rem => if right.value = 0 then none else some (left.value.tmod right.value)
  | bitAnd => some (left.bits.toNat &&& right.bits.toNat : Nat)
  | bitOr => some (left.bits.toNat ||| right.bits.toNat : Nat)
  | bitXor => some (left.bits.toNat ^^^ right.bits.toNat : Nat)
  | shl => if within then some (left.value * Nat.pow 2 right.value.toNat) else none
  | shr => if within then some (left.value / Nat.pow 2 right.value.toNat) else none
  | _ => none

namespace Scalar

/-- Applies an operator to two scalars of one type. -/
def binary? (op : BinaryOp) (left right : Scalar) : Option Scalar :=
  if right.prim = left.prim then
    match op.test? left.value right.value with
    | some truth => some (bool truth)
    | none => (op.result? left right).map (ofInt left.prim)
  else none

/-- Applies an operator to one scalar. -/
def unary (op : UnaryOp) (operand : Scalar) : Scalar :=
  match op with
  | .neg => ofInt operand.prim (-operand.value)
  | .not => ofInt operand.prim (-operand.value - 1)

/-! ### Opcodes -/

theorem ofInt_value (scalar : Scalar) :
    BitVec.ofInt scalar.prim.width scalar.value = scalar.bits := by
  unfold value
  split_ifs
  · exact BitVec.ofInt_toInt
  · rw [BitVec.ofInt_natCast, BitVec.ofNat_toNat, BitVec.setWidth_eq]

theorem unary_datum (op : UnaryOp) (operand : Scalar) :
    operand.datum.unary (Lowering.unaryOpcode op) = some (operand.unary op).datum := by
  cases op with
  | neg =>
    rw [unary, datum, datum, ofInt, BitVec.ofInt_neg, ofInt_value]
    rfl
  | not =>
    rw [unary, datum, datum, ofInt, Int.sub_eq_add_neg, BitVec.ofInt_add, BitVec.ofInt_neg,
      BitVec.ofInt_neg, ofInt_value, BitVec.ofInt_ofNat, ← BitVec.sub_eq_add_neg,
      ← BitVec.not_eq_neg_add]
    rfl

theorem unary_prim (op : UnaryOp) (operand : Scalar) :
    (operand.unary op).prim = operand.prim := by
  cases op <;> rfl

section Opcodes

variable {prim : Prim} {left right : BitVec prim.width}

theorem value_of_signed (signed : prim.isSigned = true) (bits : BitVec prim.width) :
    value ⟨prim, bits⟩ = bits.toInt := if_pos signed

theorem value_of_unsigned (unsigned : prim.isSigned = false) (bits : BitVec prim.width) :
    value ⟨prim, bits⟩ = bits.toNat := if_neg (by rw [unsigned]; exact Bool.false_ne_true)

theorem value_inj : value ⟨prim, left⟩ = value ⟨prim, right⟩ ↔ left = right := by
  unfold value
  dsimp only
  split_ifs
  · exact BitVec.toInt_inj
  · rw [Int.natCast_inj, BitVec.toNat_inj]

theorem value_eq_zero (bits : BitVec prim.width) : value ⟨prim, bits⟩ = 0 ↔ bits = 0 := by
  unfold value
  split_ifs
  · rw [← BitVec.toInt_inj, BitVec.ofNat_eq_ofNat, BitVec.toInt_zero]
  · simp [← BitVec.toNat_inj]

/-- A number that is not negative is its own pattern. -/
theorem toNat_of_nonneg (nonneg : 0 ≤ value ⟨prim, right⟩) :
    (value ⟨prim, right⟩).toNat = right.toNat := by
  have bound := right.isLt
  unfold value at nonneg ⊢
  dsimp only at nonneg ⊢
  split_ifs at nonneg ⊢
  · rw [BitVec.toInt_eq_toNat_cond] at nonneg ⊢
    split_ifs at nonneg ⊢ <;> omega
  · rfl

theorem divide (nonzero : right ≠ 0) :
    (if prim.isSigned then BinOp.sdiv else .udiv).apply left right =
      some (BitVec.ofInt prim.width ((value ⟨prim, left⟩).tdiv (value ⟨prim, right⟩))) := by
  cases signed : prim.isSigned with
  | true =>
    rw [value_of_signed signed, value_of_signed signed, if_pos rfl, BinOp.apply, if_neg nonzero]
    congr 1
    refine BitVec.eq_of_toInt_eq ?_
    rw [BitVec.toInt_sdiv, BitVec.toInt_ofInt]
  | false =>
    rw [value_of_unsigned signed, value_of_unsigned signed, if_neg Bool.false_ne_true, BinOp.apply,
      if_neg nonzero, ← Int.ofNat_tdiv, BitVec.ofInt_natCast, ← BitVec.toNat_udiv,
      BitVec.ofNat_toNat, BitVec.setWidth_eq]
    rfl

theorem remainder (nonzero : right ≠ 0) :
    (if prim.isSigned then BinOp.srem else .urem).apply left right =
      some (BitVec.ofInt prim.width ((value ⟨prim, left⟩).tmod (value ⟨prim, right⟩))) := by
  cases signed : prim.isSigned with
  | true =>
    rw [value_of_signed signed, value_of_signed signed, if_pos rfl, BinOp.apply, if_neg nonzero]
    congr 1
    rw [← BitVec.toInt_srem, BitVec.ofInt_toInt]
  | false =>
    rw [value_of_unsigned signed, value_of_unsigned signed, if_neg Bool.false_ne_true, BinOp.apply,
      if_neg nonzero, ← Int.ofNat_tmod, BitVec.ofInt_natCast, ← BitVec.toNat_umod,
      BitVec.ofNat_toNat, BitVec.setWidth_eq]
    rfl

theorem shiftLeft (within : 0 ≤ value ⟨prim, right⟩ ∧ value ⟨prim, right⟩ < prim.width) :
    BinOp.shl.apply left right =
      some (BitVec.ofInt prim.width (value ⟨prim, left⟩ * Nat.pow 2 (value ⟨prim, right⟩).toNat)) := by
  have same := toNat_of_nonneg within.1
  rw [BinOp.apply, if_pos (by omega), same, BitVec.ofInt_mul, ofInt_value ⟨prim, left⟩,
    BitVec.shiftLeft_eq_mul_twoPow]
  congr 2
  refine BitVec.eq_of_toNat_eq ?_
  rw [BitVec.toNat_twoPow, BitVec.ofInt_natCast, BitVec.toNat_ofNat, Nat.pow_eq]

theorem shiftRight (within : 0 ≤ value ⟨prim, right⟩ ∧ value ⟨prim, right⟩ < prim.width) :
    (if prim.isSigned then BinOp.ashr else .lshr).apply left right =
      some (BitVec.ofInt prim.width (value ⟨prim, left⟩ / Nat.pow 2 (value ⟨prim, right⟩).toNat)) := by
  have same := toNat_of_nonneg within.1
  have small : right.toNat < prim.width := by omega
  rw [same]
  cases signed : prim.isSigned with
  | true =>
    rw [value_of_signed signed, if_pos rfl, BinOp.apply, if_pos small]
    congr 1
    rw [Nat.pow_eq, ← Int.shiftRight_eq_div_pow, ← BitVec.toInt_sshiftRight, BitVec.ofInt_toInt]
  | false =>
    rw [value_of_unsigned signed, if_neg Bool.false_ne_true, BinOp.apply, if_pos small]
    congr 1
    rw [Nat.pow_eq, ← Int.shiftRight_eq_div_pow, ← Int.natCast_shiftRight, BitVec.ofInt_natCast,
      ← BitVec.toNat_ushiftRight, BitVec.ofNat_toNat, BitVec.setWidth_eq]

/-- The opcode that lowering chooses for an operator computes its result. -/
theorem apply_of_result {op : BinaryOp} {opcode : BinOp} {result : Int}
    (chosen : Lowering.arithmetic? op prim.isSigned = some opcode)
    (computed : op.result? ⟨prim, left⟩ ⟨prim, right⟩ = some result) :
    opcode.apply left right = some (BitVec.ofInt prim.width result) := by
  have whole := ofInt_value ⟨prim, left⟩
  have whole' := ofInt_value ⟨prim, right⟩
  cases op with
  | add =>
    cases chosen
    cases computed
    rw [BitVec.ofInt_add, whole, whole', BinOp.apply]
  | sub =>
    cases chosen
    cases computed
    rw [Int.sub_eq_add_neg, BitVec.ofInt_add, BitVec.ofInt_neg, whole, whole', BinOp.apply,
      BitVec.sub_eq_add_neg]
  | mul =>
    cases chosen
    cases computed
    rw [BitVec.ofInt_mul, whole, whole', BinOp.apply]
  | div =>
    simp only [BinaryOp.result?, value_eq_zero] at computed
    split_ifs at computed with zero
    cases computed
    rw [← divide zero]
    cases signed : prim.isSigned <;> rw [signed] at chosen <;> cases chosen <;> rfl
  | rem =>
    simp only [BinaryOp.result?, value_eq_zero] at computed
    split_ifs at computed with zero
    cases computed
    rw [← remainder zero]
    cases signed : prim.isSigned <;> rw [signed] at chosen <;> cases chosen <;> rfl
  | bitAnd =>
    cases chosen
    cases computed
    rw [BitVec.ofInt_natCast, BitVec.ofNat_and, BinOp.apply]
    simp
  | bitOr =>
    cases chosen
    cases computed
    rw [BitVec.ofInt_natCast, BitVec.ofNat_or, BinOp.apply]
    simp
  | bitXor =>
    cases chosen
    cases computed
    rw [BitVec.ofInt_natCast, BitVec.ofNat_xor, BinOp.apply]
    simp
  | shl =>
    simp only [BinaryOp.result?] at computed
    split_ifs at computed with within
    cases computed
    cases chosen
    exact shiftLeft within
  | shr =>
    simp only [BinaryOp.result?] at computed
    split_ifs at computed with within
    cases computed
    rw [← shiftRight within]
    cases signed : prim.isSigned <;> rw [signed] at chosen <;> cases chosen <;> rfl
  | _ => cases computed

/-- What lowering chooses for a comparison tests the same. -/
theorem apply_of_test {op : BinaryOp} {pred : CmpPred} {truth : Bool}
    (chosen : Lowering.comparison? op prim.isSigned = some pred)
    (tested : op.test? (value ⟨prim, left⟩) (value ⟨prim, right⟩) = some truth) :
    pred.apply left right = truth := by
  cases op with
  | eq =>
    cases chosen
    cases tested
    simp only [CmpPred.apply, value_inj]
    rfl
  | notEq =>
    cases chosen
    cases tested
    simp only [CmpPred.apply, ne_eq, value_inj]
    rw [decide_not]
    rfl
  | lt | ltEq | gt | gtEq =>
    cases signed : prim.isSigned with
    | true =>
      rw [value_of_signed signed, value_of_signed signed] at tested
      rw [signed] at chosen
      cases chosen
      cases tested
      rfl
    | false =>
      rw [value_of_unsigned signed, value_of_unsigned signed] at tested
      rw [signed] at chosen
      cases chosen
      cases tested
      simp [CmpPred.apply, BitVec.ult_eq_decide, BitVec.ule_eq_decide]
  | _ => cases tested

end Opcodes

theorem isSome_test? (op : BinaryOp) (left right : Int) :
    (op.test? left right).isSome = op.isComparison := by
  cases op <;> rfl

theorem isSome_comparison? (op : BinaryOp) (signed : Bool) :
    (Lowering.comparison? op signed).isSome = op.isComparison := by
  cases op <;> cases signed <;> rfl

theorem arithmetic?_of_comparison {op : BinaryOp} (comparison : op.isComparison = true)
    (signed : Bool) : Lowering.arithmetic? op signed = none := by
  cases op <;> first | rfl | cases comparison

theorem compare_datum {op : BinaryOp} {pred : CmpPred} {left right result : Scalar}
    (chosen : Lowering.comparison? op left.prim.isSigned = some pred)
    (computed : binary? op left right = some result) :
    left.datum.compare pred right.datum = some result.datum ∧ result.prim = .bool := by
  obtain ⟨prim, left⟩ := left
  obtain ⟨prim', right⟩ := right
  unfold binary? at computed
  split_ifs at computed with same
  dsimp only at same
  subst same
  cases tested : op.test? (value ⟨prim', left⟩) (value ⟨prim', right⟩) with
  | none =>
    have comparison := isSome_comparison? op prim'.isSigned
    rw [← isSome_test? op, tested, chosen] at comparison
    cases comparison
  | some truth =>
    rw [tested] at computed
    cases computed
    have decided := apply_of_test chosen tested
    refine ⟨?_, rfl⟩
    rw [datum, datum, Datum.compare, dif_pos rfl, BitVec.cast_eq, decided]
    rfl

theorem binary_datum {op : BinaryOp} {opcode : BinOp} {left right result : Scalar}
    (chosen : Lowering.arithmetic? op left.prim.isSigned = some opcode)
    (computed : binary? op left right = some result) :
    left.datum.binary opcode right.datum = some result.datum ∧ result.prim = left.prim := by
  obtain ⟨prim, left⟩ := left
  obtain ⟨prim', right⟩ := right
  unfold binary? at computed
  split_ifs at computed with same
  dsimp only at same
  subst same
  have untested : op.test? (value ⟨prim', left⟩) (value ⟨prim', right⟩) = none := by
    rw [← Option.not_isSome_iff_eq_none, isSome_test?]
    intro comparison
    rw [arithmetic?_of_comparison comparison] at chosen
    cases chosen
  rw [untested] at computed
  dsimp only at computed
  obtain ⟨number, found, rfl⟩ := Option.map_eq_some_iff.1 computed
  have applied := apply_of_result chosen found
  refine ⟨?_, rfl⟩
  rw [datum, datum, Datum.binary, dif_pos rfl, BitVec.cast_eq, applied]
  rfl

end Scalar

end TreeLowering.Tree
