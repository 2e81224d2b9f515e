/-
This file stores values. A store of a large aggregate that was loaded earlier in the same block
becomes a call of the copy routine, and the load is dropped, when nothing in between stores, calls
or reads the loaded register. Registers bound to a name are pinned and never treated so, because
the name can be read again.
-/

import TreeLowering.Lowering.Build.Emit

namespace TreeLowering.Lowering

open Ir

namespace Builder

/-- The load that defines `name`, searched in the instructions of a block from the last to the
first: its position and the address it reads. The search ends at an instruction with effects or
one that reads `name`. -/
def findLoad? (name : ValueName) : List Instruction → Option (Nat × Value)
  | [] => none
  | inst :: earlier =>
    if inst.name = name then
      match inst.op with
      | .load address => some (earlier.length, address)
      | _ => none
    else if inst.op.hasEffects || inst.uses name then none
    else findLoad? name earlier

/-- Whether a value of this type is copied by a call. -/
def isLargeAggregate (builder : Builder) (ty : Ty) : Except Trap Bool := do
  if ty.isAggregate then
    return builder.options.inlineCopyThreshold < (← builder.target.sizeOf ty)
  else return false

/-- Where the load behind a value stands that nothing else needs, and what it reads. -/
def loadBehind? (builder : Builder) (value : Value) : Option (Cursor × Nat × Value) := do
  let name ← value.regName?
  guard !(builder.pinned.contains name)
  let cursor ← builder.cursor
  let function ← builder.target.function? cursor.func
  let block ← function.block? cursor.block
  let (position, address) ← findLoad? name block.insts.toList.reverse
  return (cursor, position, address)

/-- Where the load stands that a store of `value` makes superfluous, and what it reads. -/
def copySource? (builder : Builder) (value : Value) :
    Except Trap (Option (Cursor × Nat × Value)) := do
  if ← builder.isLargeAggregate value.ty then return builder.loadBehind? value
  else return none

end Builder

namespace Build

/-- Keeps the load behind a value from being dropped by a store. -/
def pin (value : Value) : BuildM Unit := do
  if let some name := value.regName? then
    modify fun builder => { builder with pinned := name :: builder.pinned }

/-- The parameters of the copy routine. -/
def copyParams : List Param :=
  [⟨"dst", .ptr .u8 true⟩, ⟨"src", .ptr .u8 false⟩, ⟨"len", .usize⟩]

/-- The operand that calls the copy routine, which is declared on first use. -/
def copyRoutine : BuildM Value := do
  let symbol := (← get).options.copySymbol
  let func ← declare fun target => target.declareFunction symbol copyParams .unit
  ask fun target => target.functionRef func

/-- Copies a value of type `ty` from one address to another by a call. -/
def copyAggregate (destination origin : Value) (ty : Ty) : BuildM Unit := do
  let size ← measure fun builder => builder.target.sizeOf ty
  let routine ← copyRoutine
  let destination ← cast .bitcast destination (.ptr .u8 true)
  let origin ← cast .bitcast origin (.ptr .u8 false)
  let _ ← call routine [destination, origin, .int size.toNat .usize] .unit

/-- Stores a value, copying a large aggregate straight from where it was loaded. -/
def store (address value : Value) : BuildM Unit := do
  match ← measure fun builder => builder.copySource? value with
  | some (cursor, position, origin) =>
    let _ ← removeAt cursor.func cursor.block position
    copyAggregate address origin value.ty
  | none =>
    let _ ← emitTemp (.store address value) .unit

/-- Emits any operation. Slots go to the front of the entry block and stores may become copies;
a store yields the unit value. -/
def emit (op : Operation) (ty : Ty) : BuildM Value :=
  match op with
  | .alloca allocated => alloca allocated none
  | .store address value => do
    store address value
    return .unit
  | op => emitTemp op ty

end Build

end TreeLowering.Lowering
