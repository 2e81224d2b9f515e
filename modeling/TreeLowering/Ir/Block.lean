/-
This file defines basic blocks: a label, a list of instructions and at most one terminator. A block
is open until it is given its terminator. Instructions are added at the end of an open block; only
the stack slots at the front of an entry block may come later.
-/

import TreeLowering.Ir.Instruction

namespace TreeLowering.Ir

/-- A straight-line run of instructions. -/
structure Block where
  id : BlockId
  label : String
  insts : Array Instruction
  terminator : Option Terminator
deriving DecidableEq, Repr, Inhabited

namespace Block

/-- A block without instructions that is still open. -/
def fresh (id : BlockId) (label : String) : Block := ⟨id, label, #[], none⟩

def isTerminated (block : Block) : Bool := block.terminator.isSome

/-- Adds an instruction at the end. -/
def append (block : Block) (inst : Instruction) : Block :=
  { block with insts := block.insts.push inst }

/-- Adds an instruction at `position`, or at the end when there are fewer instructions. -/
def insert (block : Block) (position : Nat) (inst : Instruction) : Block :=
  { block with insts := block.insts.insertIdxIfInBounds (min position block.insts.size) inst }

/-- Drops the instruction at `position`, if there is one. -/
def remove (block : Block) (position : Nat) : Block :=
  { block with insts := block.insts.eraseIdxIfInBounds position }

/-- Closes the block. -/
def terminate (block : Block) (terminator : Terminator) : Block :=
  { block with terminator := some terminator }

end Block

end TreeLowering.Ir
