/-
This file lists the opcodes that come in several forms, each with the text a listing writes for it:
arithmetic, comparisons and conversions.
-/

namespace TreeLowering.Ir

/-- Arithmetic and bitwise opcodes with two operands; division, remainder and right shift have a
signed and an unsigned form. -/
inductive BinOp where
  | add | sub | mul | sdiv | udiv | srem | urem
  | and | or | xor | shl | ashr | lshr
deriving DecidableEq, Repr, Inhabited

namespace BinOp

def all : List BinOp :=
  [add, sub, mul, sdiv, udiv, srem, urem, and, or, xor, shl, ashr, lshr]

def text : BinOp → String
  | add => "add"
  | sub => "sub"
  | mul => "mul"
  | sdiv => "sdiv"
  | udiv => "udiv"
  | srem => "srem"
  | urem => "urem"
  | and => "and"
  | or => "or"
  | xor => "xor"
  | shl => "shl"
  | ashr => "ashr"
  | lshr => "lshr"

end BinOp

/-- Opcodes with one operand. -/
inductive UnOp where
  | neg | not
deriving DecidableEq, Repr, Inhabited

namespace UnOp

def all : List UnOp := [neg, not]

def text : UnOp → String
  | neg => "neg"
  | not => "not"

end UnOp

/-- What a comparison tests; orderings have a signed and an unsigned form. -/
inductive CmpPred where
  | eq | ne
  | slt | sle | sgt | sge
  | ult | ule | ugt | uge
deriving DecidableEq, Repr, Inhabited

namespace CmpPred

def all : List CmpPred := [eq, ne, slt, sle, sgt, sge, ult, ule, ugt, uge]

def text : CmpPred → String
  | eq => "eq"
  | ne => "ne"
  | slt => "slt"
  | sle => "sle"
  | sgt => "sgt"
  | sge => "sge"
  | ult => "ult"
  | ule => "ule"
  | ugt => "ugt"
  | uge => "uge"

end CmpPred

/-- How a value is converted to another type. -/
inductive CastKind where
  /-- The same bits under another type. -/
  | bitcast
  /-- Drop the high bits. -/
  | trunc
  /-- Fill the high bits with zeros. -/
  | zext
  /-- Fill the high bits with the sign. -/
  | sext
deriving DecidableEq, Repr, Inhabited

namespace CastKind

def all : List CastKind := [bitcast, trunc, zext, sext]

def text : CastKind → String
  | bitcast => "bitcast"
  | trunc => "trunc"
  | zext => "zext"
  | sext => "sext"

end CastKind

end TreeLowering.Ir
