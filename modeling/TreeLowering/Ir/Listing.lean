/-
This file writes modules as text. A listing has one section for the types, one for the globals, one
for the functions that are only declared, and one for each function with a body; sections without
content are left out and the others are separated by an empty line. Inside a body every
instruction and terminator takes one line, indented by two spaces, below the label of its block.
-/

import TreeLowering.Ir.Module

namespace TreeLowering.Ir

/-! ### Operands -/

/-- Joins texts with commas. -/
def commaList (texts : List String) : String := ", ".intercalate texts

namespace Function

/-- The text of an operand inside this function: a block is written by its label. -/
def operandText (function : Function) : Value → String
  | .label block => "%" ++ function.label block
  | other => other.text

def operandsText (function : Function) (values : List Value) : String :=
  commaList (values.map function.operandText)

/-- One incoming value of a phi, with the block it comes from. -/
def incomingText (function : Function) (incoming : Value × BlockId) : String :=
  "[" ++ function.operandText incoming.1 ++ ", %" ++ function.label incoming.2 ++ "]"

/-! ### Instructions -/

/-- The opcode as a listing writes it; a comparison adds what it tests. -/
def opcodeText : Operation → String
  | .cmp pred .. => "cmp " ++ pred.text
  | other => other.opcode

/-- What follows the display type of an instruction. -/
def operationText (function : Function) (ty : Ty) : Operation → String
  | .const value => " " ++ function.operandText value
  | .alloca _ => ""
  | .load address => " " ++ function.operandText address
  | .store address value => " " ++ function.operandsText [value, address]
  | .binary _ left right => " " ++ function.operandsText [left, right]
  | .unary _ operand => " " ++ function.operandText operand
  | .cmp _ left right => " " ++ function.operandsText [left, right]
  | .call callee args =>
    " " ++ function.operandText callee ++ "(" ++ function.operandsText args ++ ")"
  | .gep _ base indices => " " ++ function.operandsText (base :: indices)
  | .phi incoming => " " ++ commaList (incoming.map function.incomingText)
  | .cast _ value => " " ++ function.operandText value ++ " to " ++ ty.text

def instructionText (function : Function) (inst : Instruction) : String :=
  inst.name.text ++ " = " ++ opcodeText inst.op ++ " " ++ inst.displayTy.text ++
    function.operationText inst.ty inst.op

def terminatorText (function : Function) : Terminator → String
  | .ret none => "ret void"
  | .ret (some value) => "ret " ++ value.ty.text ++ " " ++ function.operandText value
  | .branch test thenBlock elseBlock =>
    "br " ++ function.operandText test ++ ", %" ++ function.label thenBlock ++ ", %" ++
      function.label elseBlock
  | .jump target => "jmp %" ++ function.label target

/-! ### Functions -/

/-- The lines of a block, its label first. -/
def blockLines (function : Function) (block : Block) : List String :=
  (block.label ++ ":") ::
    (block.insts.toList.map fun inst => "  " ++ function.instructionText inst) ++
    (block.terminator.toList.map fun terminator => "  " ++ function.terminatorText terminator)

/-- The line that opens a body. -/
def headLine (function : Function) : String :=
  "define " ++ function.ret.text ++ " @" ++ function.name ++ "(" ++
    commaList (function.params.map fun param => param.ty.text ++ " %" ++ param.name) ++ ") \x7b"

/-- The lines of a function with a body. -/
def definitionLines (function : Function) : List String :=
  function.headLine :: function.blocks.toList.flatMap function.blockLines ++ ["\x7d"]

/-- The line of a function without a body. -/
def declarationLine (function : Function) : String :=
  "declare " ++ function.ret.text ++ " @" ++ function.name ++ "(" ++
    Ty.textAll (function.params.map Param.ty) ++ ")"

end Function

/-- Ends every line with a line feed and joins them. -/
def joinLines (lines : List String) : String :=
  String.join (lines.map fun line => line ++ "\n")

/-- The text of a function as a `define` listing. -/
def Function.listing (function : Function) : String := joinLines function.definitionLines

/-! ### Modules -/

def TypeDef.line (definition : TypeDef) : String :=
  match definition.fields with
  | some fields => "%" ++ definition.name ++ " = type " ++ fieldsText fields
  | none => "%" ++ definition.name ++ " = type opaque"

def Global.line (global : Global) : String :=
  "@" ++ global.name ++ " = constant " ++ global.ty.text ++ " " ++ global.init.text

namespace Module

/-- The sections of a listing, empty ones included. -/
def sections (target : Module) : List (List String) :=
  let functions := target.functions.toList
  target.types.toList.map TypeDef.line ::
    target.globals.toList.map Global.line ::
    (functions.filter Function.isDeclaration).map Function.declarationLine ::
    (functions.filter fun function => !function.isDeclaration).map Function.definitionLines

/-- The text of a module. -/
def listing (target : Module) : String :=
  "\n".intercalate ((target.sections.filter fun lines => !lines.isEmpty).map joinLines)

end Module

end TreeLowering.Ir
