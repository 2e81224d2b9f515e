/-
This file defines the operators of the source language and the symbols they are written with.
Comparisons always yield a truth value, and the two short-circuit operators evaluate their right
operand only when the left one does not already decide the result.
-/

namespace TreeLowering.Tree

/-- Operators with two operands. -/
inductive BinaryOp where
  | add | sub | mul | div | rem
  | bitAnd | bitOr | bitXor | shl | shr
  | eq | notEq | lt | ltEq | gt | gtEq
  | and | or
deriving DecidableEq, Repr, Inhabited

namespace BinaryOp

/-- Every binary operator once. -/
def all : List BinaryOp :=
  [add, sub, mul, div, rem, bitAnd, bitOr, bitXor, shl, shr,
    eq, notEq, lt, ltEq, gt, gtEq, and, or]

/-- The symbol of the operator in source text. -/
def symbol : BinaryOp → String
  | add => "+"
  | sub => "-"
  | mul => "*"
  | div => "/"
  | rem => "%"
  | bitAnd => "&"
  | bitOr => "|"
  | bitXor => "^"
  | shl => "<<"
  | shr => ">>"
  | eq => "=="
  | notEq => "!="
  | lt => "<"
  | ltEq => "<="
  | gt => ">"
  | gtEq => ">="
  | and => "&&"
  | or => "||"

/-- The binary operator written with `symbol`, if there is one. -/
def ofSymbol? (text : String) : Option BinaryOp :=
  all.find? fun op => op.symbol == text

/-- Whether the operator compares its operands and so yields a truth value. -/
def isComparison : BinaryOp → Bool
  | eq | notEq | lt | ltEq | gt | gtEq => true
  | _ => false

/-- Whether the operator may skip its right operand. -/
def isShortCircuit : BinaryOp → Bool
  | and | or => true
  | _ => false

end BinaryOp

/-- Operators with one operand. -/
inductive UnaryOp where
  /-- Arithmetic negation. -/
  | neg
  /-- Logical negation of truth values, bitwise negation of integers. -/
  | not
deriving DecidableEq, Repr, Inhabited

namespace UnaryOp

/-- Every unary operator once. -/
def all : List UnaryOp := [neg, not]

/-- The symbol of the operator in source text. -/
def symbol : UnaryOp → String
  | neg => "-"
  | not => "!"

/-- The unary operator written with `symbol`, if there is one. -/
def ofSymbol? (text : String) : Option UnaryOp :=
  all.find? fun op => op.symbol == text

end UnaryOp

end TreeLowering.Tree
