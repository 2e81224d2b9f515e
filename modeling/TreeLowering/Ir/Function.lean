/-
This file defines functions: a signature with blocks. Without blocks it is the declaration of a
function that lives elsewhere. The first block is always labelled `entry`, and every later one
carries its own position in its label.
-/

import TreeLowering.Ir.Block
import TreeLowering.Ir.Error

namespace TreeLowering.Ir

/-- A parameter of a function. -/
structure Param where
  name : String
  ty : Ty
deriving DecidableEq, Repr, Inhabited

/-- The operand that reads a parameter. -/
def Param.value (param : Param) : Value := .param param.name param.ty

/-- A signature and the blocks of a body. -/
structure Function where
  name : String
  params : List Param
  ret : Ty
  blocks : Array Block
deriving DecidableEq, Repr, Inhabited

/-- Blocks and functions are numbered with thirty-two bits. -/
def idLimit : Nat := 0x100000000

namespace Function

/-- The function without a body. -/
def declared (name : String) (params : List Param) (ret : Ty) : Function :=
  ⟨name, params, ret, #[]⟩

/-- The type of the function. -/
def signature (function : Function) : Ty := .func (function.params.map Param.ty) function.ret

def isDeclaration (function : Function) : Bool := function.blocks.isEmpty

/-- The block in which a body starts. -/
def entryId : BlockId := ⟨0⟩

/-- The function with an entry block, made when there is none. -/
def withEntry (function : Function) : Function :=
  if function.blocks.isEmpty then
    { function with blocks := #[.fresh entryId "entry"] }
  else function

@[simp] theorem name_withEntry (function : Function) : function.withEntry.name = function.name := by
  unfold withEntry
  split <;> rfl

@[simp] theorem params_withEntry (function : Function) :
    function.withEntry.params = function.params := by
  unfold withEntry
  split <;> rfl

@[simp] theorem ret_withEntry (function : Function) : function.withEntry.ret = function.ret := by
  unfold withEntry
  split <;> rfl

/-- The position of the next block that `addBlock` makes; an entry block comes first. -/
def nextBlock (function : Function) : BlockId :=
  if function.blocks.isEmpty then ⟨1⟩ else ⟨function.blocks.size⟩

/-- Adds an open block labelled with `hint` and its position. -/
def addBlock (function : Function) (hint : String) : Function :=
  let id := function.nextBlock
  let started := function.withEntry
  { started with blocks := started.blocks.push (.fresh id (hint ++ "." ++ toString id.index)) }

@[simp] theorem name_addBlock (hint : String) (function : Function) :
    (function.addBlock hint).name = function.name :=
  name_withEntry function

@[simp] theorem params_addBlock (function : Function) (hint : String) :
    (function.addBlock hint).params = function.params :=
  params_withEntry function

/-- With the new block a function has begun. -/
@[simp] theorem isEmpty_addBlock (function : Function) (hint : String) :
    (function.addBlock hint).blocks.isEmpty = false := by
  simp [addBlock]

def block? (function : Function) (block : BlockId) : Option Block :=
  function.blocks[block.index]?

/-- The block at a position, or the error that it does not exist. -/
def getBlock (function : Function) (block : BlockId) : Except Error Block :=
  match function.block? block with
  | some found => .ok found
  | none => .error (.unknownBlock block function.name)

/-- Changes one block. -/
def modifyBlock (function : Function) (block : BlockId) (change : Block → Block) : Function :=
  { function with blocks := function.blocks.modify block.index change }

@[simp] theorem name_modifyBlock (function : Function) (block : BlockId) (change : Block → Block) :
    (function.modifyBlock block change).name = function.name :=
  (rfl)

/-- The label of a block; an unknown block reads as a question mark. -/
def label (function : Function) (block : BlockId) : String :=
  match function.block? block with
  | some found => found.label
  | none => "?"

/-- How many instructions the function has, terminators not counted. -/
def instructionCount (function : Function) : Nat :=
  function.blocks.toList.foldr (fun block count => block.insts.size + count) 0

/-- The operand that reads the parameter at a position. -/
def paramValue? (function : Function) (position : Nat) : Option Value :=
  function.params[position]?.map Param.value

end Function

end TreeLowering.Ir
