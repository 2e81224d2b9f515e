/-
This file defines operands: instruction results, parameters, globals, block labels, constants, and
the placeholder for a value that no run ever reads. Every operand knows its type.
-/

import TreeLowering.Ir.Constant
import TreeLowering.Ir.Ty

namespace TreeLowering.Ir

/-- A block: its position in a function. -/
structure BlockId where
  index : Nat
deriving DecidableEq, Repr, Inhabited

/-- A function: its position in a module. -/
structure FuncId where
  index : Nat
deriving DecidableEq, Repr, Inhabited

/-- The name of an instruction result. -/
inductive ValueName where
  /-- A numbered temporary. -/
  | temp (number : Nat)
  | named (text : String)
deriving DecidableEq, Repr, Inhabited

def ValueName.text : ValueName → String
  | temp number => "%" ++ toString number
  | named text => "%" ++ text

/-- An operand. -/
inductive Value where
  /-- The result of an earlier instruction. -/
  | reg (name : ValueName) (ty : Ty)
  | param (name : String) (ty : Ty)
  /-- The address of a global or a function. -/
  | global (name : String) (ty : Ty)
  | label (block : BlockId)
  /-- A value that is never produced when the program runs. -/
  | undef (ty : Ty)
  | const (value : Constant) (ty : Ty)
deriving DecidableEq, Repr, Inhabited

namespace Value

def int (value : Int) (ty : Ty) : Value := .const (.int value) ty

def bool (value : Bool) : Value := .const (.bool value) .bool

def char (value : Char) : Value := .const (.char value) .char

def unit : Value := .const .unit .unit

/-- What an expression yields when control never reaches its end. -/
def unreachable : Value := .undef .never

def ty : Value → Ty
  | reg _ ty => ty
  | param _ ty => ty
  | global _ ty => ty
  | label _ => .label
  | undef ty => ty
  | const _ ty => ty

/-- The name of the instruction result that the operand reads, if it reads one. -/
def regName? : Value → Option ValueName
  | reg name _ => some name
  | _ => none

def constant? : Value → Option Constant
  | const value _ => some value
  | _ => none

def isUndef : Value → Bool
  | undef _ => true
  | _ => false

/-- The text of an operand outside any function; a listing writes a block by its own label. -/
def text : Value → String
  | reg name _ => name.text
  | param name _ => "%" ++ name
  | global name _ => "@" ++ name
  | label block => "%bb" ++ toString block.index
  | undef _ => "undef"
  | const value _ => value.text

end Value

end TreeLowering.Ir
