/-
This file gives every type a size and an alignment in bytes. Fields follow each other in order,
each at the next multiple of its alignment; a struct has the largest alignment of its fields and a
size rounded up to it; an array is its element repeated. Sizes are 64-bit words. The product of an
element size and a length stops at the largest word; a sum that no word holds is a trap, and then
the type has no layout. Nesting deeper than `maxDepth`, which only a struct that contains itself by
value reaches, counts as empty.
-/

import TreeLowering.Ir.Module

namespace TreeLowering.Ir

/-- Why a computation with words stops without a result. -/
inductive Trap where
  | overflow
  | zeroDivisor
deriving DecidableEq, Repr

/-- The wording of each trap. -/
def Trap.message : Trap → String
  | overflow => "attempt to add with overflow"
  | zeroDivisor => "attempt to calculate the remainder with a divisor of zero"

/-- The size and alignment of a type. -/
structure Layout where
  size : UInt64
  align : UInt64
deriving DecidableEq, Repr, Inhabited

namespace Layout

/-- The layout of a type without content. -/
def empty : Layout := ⟨0, 1⟩

/-- How many levels of arrays and structs inside one another are laid out. -/
def maxDepth : Nat := 128

/-- The product of two words, or the largest word when it does not fit. -/
def saturatingMul (left right : UInt64) : UInt64 :=
  if left.toNat * right.toNat < 0x10000000000000000 then left * right else 0xffffffffffffffff

/-- The sum of two words. -/
def checkedAdd (left right : UInt64) : Except Trap UInt64 :=
  if left.toNat + right.toNat < 0x10000000000000000 then .ok (left + right) else .error .overflow

/-- The least multiple of `align` that is not below `offset`. -/
def roundUp (offset align : UInt64) : Except Trap UInt64 :=
  if align = 0 then .error .zeroDivisor
  else if offset % align = 0 then .ok offset
  else checkedAdd offset (align - offset % align)

/-- Puts a field behind the bytes placed so far. -/
def place (placed field : Layout) : Except Trap Layout := do
  let start ← roundUp placed.size field.align
  return ⟨← checkedAdd start field.size, max placed.align field.align⟩

/-- Rounds the size of the placed fields up to their alignment. -/
def close (placed : Layout) : Except Trap Layout := do
  return ⟨← roundUp placed.size placed.align, placed.align⟩

/-- The layout of a scalar. -/
def ofPrim (prim : Prim) : Layout := ⟨prim.size, max prim.size 1⟩

end Layout

namespace Module

/-- The layout of a type, read through `depth` levels of nesting. -/
def layoutWithin (target : Module) : (depth : Nat) → Ty → Except Trap Layout
  | 0, _ => return .empty
  | _ + 1, .prim prim => return .ofPrim prim
  | _ + 1, .ptr .. => return ⟨8, 8⟩
  | _ + 1, .func .. => return ⟨8, 8⟩
  | _ + 1, .slice _ => return ⟨16, 8⟩
  | depth + 1, .array elem len => do
    let inner ← target.layoutWithin depth elem
    return ⟨Layout.saturatingMul inner.size len, inner.align⟩
  | depth + 1, .struct name =>
    match target.structFields? name with
    | some fields => do
      let placed ← fields.foldlM (fun placed field => do
        placed.place (← target.layoutWithin depth field)) Layout.empty
      placed.close
    | none => return .empty
  | _ + 1, .label => return .empty
  | _ + 1, .unresolved _ => return .empty

/-- The layout of a type in this module. -/
def layout (target : Module) (ty : Ty) : Except Trap Layout :=
  target.layoutWithin (Layout.maxDepth + 1) ty

/-- The size of a type in bytes. -/
def sizeOf (target : Module) (ty : Ty) : Except Trap UInt64 := return (← target.layout ty).size

/-- The alignment of a type in bytes. -/
def alignOf (target : Module) (ty : Ty) : Except Trap UInt64 := return (← target.layout ty).align

end Module

end TreeLowering.Ir
