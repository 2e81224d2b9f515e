/-
This file lowers operators. Whether an opcode takes its signed or its unsigned form follows from the
type of the left operand in the instruction set, so the choice always agrees with the types that
are emitted.
-/

import TreeLowering.Lowering.Branch

namespace TreeLowering.Lowering

open TreeLowering.Ir TreeLowering.Tree

/-- What a comparison operator tests, for signed or unsigned operands. -/
def comparison? (op : BinaryOp) (signed : Bool) : Option CmpPred :=
  match op, signed with
  | .eq, _ => some .eq
  | .notEq, _ => some .ne
  | .lt, true => some .slt
  | .lt, false => some .ult
  | .ltEq, true => some .sle
  | .ltEq, false => some .ule
  | .gt, true => some .sgt
  | .gt, false => some .ugt
  | .gtEq, true => some .sge
  | .gtEq, false => some .uge
  | _, _ => none

/-- The opcode of an arithmetic or bitwise operator, for signed or unsigned operands. -/
def arithmetic? (op : BinaryOp) (signed : Bool) : Option BinOp :=
  match op, signed with
  | .add, _ => some .add
  | .sub, _ => some .sub
  | .mul, _ => some .mul
  | .div, true => some .sdiv
  | .div, false => some .udiv
  | .rem, true => some .srem
  | .rem, false => some .urem
  | .bitAnd, _ => some .and
  | .bitOr, _ => some .or
  | .bitXor, _ => some .xor
  | .shl, _ => some .shl
  | .shr, true => some .ashr
  | .shr, false => some .lshr
  | _, _ => none

/-- Emits an operator that evaluates both operands. -/
def emitBinary (op : BinaryOp) (left right : Value) (span : Span) : LowerM Value :=
  let signed := left.ty.isSigned
  match comparison? op signed with
  | some pred => build (Build.cmp pred left right)
  | none =>
    match arithmetic? op signed with
    | some opcode => build (Build.binary opcode left right)
    | none => throw (.unsupported "logical operator outside of a condition" span)

def lowerBinary (walk : Walk) (op : BinaryOp) (left right : ExprId) (span : Span) :
    LowerM Value :=
  if op.isShortCircuit then lowerShortCircuit walk (op == .and) left right span
  else
    walk.withValue left fun left =>
      walk.withValue right fun right => emitBinary op left right span

/-- The opcode of a unary operator. -/
def unaryOpcode : UnaryOp → UnOp
  | .neg => .neg
  | .not => .not

def lowerUnary (walk : Walk) (op : UnaryOp) (operand : ExprId) : LowerM Value :=
  walk.withValue operand fun value => build (Build.unary (unaryOpcode op) value)

end TreeLowering.Lowering
