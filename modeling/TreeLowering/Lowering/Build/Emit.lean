/-
This file emits instructions at the cursor. Emitting adds an instruction at the end of the cursor's
block and yields its result, and a terminator closes the block and takes the cursor away. Stack
slots are the exception: they go to the front of the entry block, each behind the slots before it,
so that every function begins with all its slots.
-/

import TreeLowering.Lowering.Build.Edit
import TreeLowering.Lowering.Build.Name

namespace TreeLowering.Lowering.Build

open Ir

/-! ### The cursor -/

/-- Moves the cursor to the end of an open block. -/
def positionAt (func : FuncId) (block : BlockId) : BuildM Unit := do
  let _ ← ensureEntry func
  ask fun target => target.checkOpen func block
  modify fun builder => { builder.enter func with cursor := some ⟨func, block⟩ }

/-- Whether there is a block to emit into. -/
def isLive : BuildM Bool := return (← get).cursor.isSome

/-- The function being built, whether or not there is a cursor. -/
def currentFunction : BuildM FuncId := do
  match (← get).current with
  | some func => return func
  | none => throw .noInsertionPoint

/-- The place where the next instruction goes. -/
def insertionPoint : BuildM Cursor := do
  match (← get).cursor with
  | some cursor => return cursor
  | none => throw .noInsertionPoint

/-- Adds a block to the current function. -/
def newBlock (hint : String) : BuildM BlockId := do
  addBlock (← currentFunction) hint

/-! ### Emission -/

/-- Adds an instruction at the cursor. -/
def append (inst : Instruction) : BuildM Value := do
  let cursor ← insertionPoint
  appendAt cursor.func cursor.block inst

/-- Adds an operation at the cursor, with a fresh temporary for its result. -/
def emitTemp (op : Operation) (ty : Ty) : BuildM Value := do
  let name ← freshName
  append ⟨name, ty, op⟩

/-- The name of a new stack slot: made from the variable it holds, or a temporary. -/
def slotName : Option String → BuildM ValueName
  | some variableName => return .named (← uniqueName (variableName ++ ".addr"))
  | none => freshName

/-- Reserves a stack slot behind the slots reserved before it. -/
def alloca (ty : Ty) (variableName : Option String) : BuildM Value := do
  let func ← currentFunction
  let name ← slotName variableName
  let inst : Instruction := ⟨name, .ptr ty true, .alloca ty⟩
  let entry ← ensureEntry func
  let slot ← insertAt func entry (← get).slotCount inst
  modify fun builder => { builder with slotCount := builder.slotCount + 1 }
  return slot

def load (address : Value) (ty : Ty) : BuildM Value := emitTemp (.load address) ty

def binary (op : BinOp) (left right : Value) : BuildM Value :=
  emitTemp (.binary op left right) left.ty

def unary (op : UnOp) (operand : Value) : BuildM Value :=
  emitTemp (.unary op operand) operand.ty

def cmp (pred : CmpPred) (left right : Value) : BuildM Value :=
  emitTemp (.cmp pred left right) .bool

def call (callee : Value) (args : List Value) (ret : Ty) : BuildM Value :=
  emitTemp (.call callee args) ret

/-- Whether a pointer may write; anything else may not. -/
def writable (address : Value) : Bool :=
  match address.ty.pointee? with
  | some (_, mutable) => mutable
  | none => false

/-- An address inside the value that `base` points at; it may write when `base` may. -/
def gep (baseTy : Ty) (base : Value) (indices : List Value) (elemTy : Ty) : BuildM Value :=
  emitTemp (.gep baseTy base indices) (.ptr elemTy (writable base))

def cast (kind : CastKind) (value : Value) (ty : Ty) : BuildM Value :=
  emitTemp (.cast kind value) ty

def phi (ty : Ty) (incoming : List (Value × BlockId)) : BuildM Value :=
  emitTemp (.phi incoming) ty

/-! ### Terminators -/

/-- Closes the cursor's block and takes the cursor away. -/
def terminate (terminator : Terminator) : BuildM Unit := do
  let cursor ← insertionPoint
  terminateAt cursor.func cursor.block terminator
  modify fun builder => { builder with cursor := none }

def jump (target : BlockId) : BuildM Unit := terminate (.jump target)

def branch (test : Value) (thenBlock elseBlock : BlockId) : BuildM Unit :=
  terminate (.branch test thenBlock elseBlock)

def ret (value : Option Value) : BuildM Unit := terminate (.ret value)

end TreeLowering.Lowering.Build
