/-
This file changes functions at a given position: it adds blocks, adds and drops instructions, and
closes blocks. Each step first makes sure that the position exists, and that the block there is
still open where it has to be.
-/

import TreeLowering.Lowering.Build.State

namespace TreeLowering.Lowering.Build

open Ir

/-- Gives a function its entry block. -/
def ensureEntry (func : FuncId) : BuildM BlockId := do
  let _ ← ask fun target => target.getFunction func
  change fun target => target.modifyFunction func Function.withEntry
  return Function.entryId

/-- Adds a block to a function. -/
def addBlock (func : FuncId) (hint : String) : BuildM BlockId := do
  ask fun target => target.checkRoom func
  let function ← ask fun target => target.getFunction func
  let block := function.nextBlock
  change fun target => target.modifyFunction func fun function => function.addBlock hint
  return block

/-- Adds an instruction at the end of a block. -/
def appendAt (func : FuncId) (block : BlockId) (inst : Instruction) : BuildM Value := do
  ask fun target => target.checkOpen func block
  change fun target => target.modifyBlock func block fun found => found.append inst
  return inst.result

/-- Adds an instruction inside a block, which may be closed already. -/
def insertAt (func : FuncId) (block : BlockId) (position : Nat) (inst : Instruction) :
    BuildM Value := do
  let _ ← ask fun target => target.getBlock func block
  change fun target => target.modifyBlock func block fun found => found.insert position inst
  return inst.result

/-- Drops an instruction of a block and yields it. -/
def removeAt (func : FuncId) (block : BlockId) (position : Nat) :
    BuildM (Option Instruction) := do
  let found ← ask fun target => target.getBlock func block
  change fun target => target.modifyBlock func block fun found => found.remove position
  return found.insts[position]?

/-- Closes a block. -/
def terminateAt (func : FuncId) (block : BlockId) (terminator : Terminator) : BuildM Unit := do
  ask fun target => target.checkOpen func block
  change fun target => target.modifyBlock func block fun found => found.terminate terminator

end TreeLowering.Lowering.Build
