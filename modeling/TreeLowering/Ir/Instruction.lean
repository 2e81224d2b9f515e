/-
This file defines instructions and terminators. An instruction names its result, gives the
result's type and says what it computes; a terminator says how control leaves a block. Only stores
and calls have effects: every other instruction may be moved or dropped without changing memory.
-/

import TreeLowering.Ir.Opcode
import TreeLowering.Ir.Value

namespace TreeLowering.Ir

/-! ### Instructions -/

/-- What an instruction computes. -/
inductive Operation where
  /-- Puts an operand into a register. -/
  | const (value : Value)
  /-- Reserves a stack slot. -/
  | alloca (allocated : Ty)
  | load (address : Value)
  | store (address value : Value)
  | binary (op : BinOp) (left right : Value)
  | unary (op : UnOp) (operand : Value)
  | cmp (pred : CmpPred) (left right : Value)
  | call (callee : Value) (args : List Value)
  /-- Address arithmetic: `base` points at a `baseTy`, and each index steps one level into it.
  Memory is not read. -/
  | gep (baseTy : Ty) (base : Value) (indices : List Value)
  | phi (incoming : List (Value × BlockId))
  | cast (kind : CastKind) (value : Value)
deriving DecidableEq, Repr, Inhabited

namespace Operation

/-- Every operand the operation reads, in order. -/
def operands : Operation → List Value
  | const value => [value]
  | alloca _ => []
  | load address => [address]
  | store address value => [address, value]
  | binary _ left right => [left, right]
  | unary _ operand => [operand]
  | cmp _ left right => [left, right]
  | call callee args => callee :: args
  | gep _ base indices => base :: indices
  | phi incoming => incoming.map Prod.fst
  | cast _ value => [value]

/-- Whether the operation writes memory or may write it. -/
def hasEffects : Operation → Bool
  | store .. | call .. => true
  | _ => false

def isAlloca : Operation → Bool
  | alloca _ => true
  | _ => false

def opcode : Operation → String
  | const _ => "const"
  | alloca _ => "alloca"
  | load _ => "load"
  | store .. => "store"
  | binary op .. => op.text
  | unary op _ => op.text
  | cmp .. => "cmp"
  | call .. => "call"
  | gep .. => "gep"
  | phi _ => "phi"
  | cast kind _ => kind.text

end Operation

/-- An instruction: the name and type of its result, and what it computes. -/
structure Instruction where
  name : ValueName
  ty : Ty
  op : Operation
deriving DecidableEq, Repr, Inhabited

namespace Instruction

/-- The operand that reads the result of the instruction. -/
def result (inst : Instruction) : Value := .reg inst.name inst.ty

/-- Whether an operand reads the result of the instruction. -/
def defines (inst : Instruction) (value : Value) : Bool := value.regName? == some inst.name

/-- Whether the instruction reads the register `name`. -/
def uses (inst : Instruction) (name : ValueName) : Bool :=
  inst.op.operands.any fun value => value.regName? == some name

/-- The type written after the opcode: that of the stored value for a store, that of the operand
for a comparison or a cast, the addressed type for a slot or an address, and the result type
otherwise. -/
def displayTy (inst : Instruction) : Ty :=
  match inst.op with
  | .alloca allocated => allocated
  | .store _ value => value.ty
  | .cmp _ left _ => left.ty
  | .cast _ value => value.ty
  | .gep baseTy _ _ => baseTy
  | _ => inst.ty

end Instruction

/-! ### Terminators -/

/-- How control leaves a block. -/
inductive Terminator where
  | ret (value : Option Value)
  | branch (test : Value) (thenBlock elseBlock : BlockId)
  | jump (target : BlockId)
deriving DecidableEq, Repr, Inhabited

namespace Terminator

/-- The blocks control may go to next. -/
def successors : Terminator → List BlockId
  | ret _ => []
  | branch _ thenBlock elseBlock => [thenBlock, elseBlock]
  | jump target => [target]

def opcode : Terminator → String
  | ret _ => "ret"
  | branch .. => "br"
  | jump _ => "jmp"

end Terminator

end TreeLowering.Ir
