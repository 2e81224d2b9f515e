/-
This file computes addresses. A pointer denotes the place it points at, a value without a home is
put into a new slot, and a field or an element is found from the place of its base, going through
as many references as the base has.
-/

import TreeLowering.Lowering.Walk

namespace TreeLowering.Lowering

open TreeLowering.Ir TreeLowering.Tree

/-- The place a pointer points at. -/
def derefPlace (pointer : Value) (span : Span) : LowerM Place :=
  match pointer.ty.pointee? with
  | some (ty, mutable) => return ⟨pointer, ty, mutable⟩
  | none => throw (.derefNonPointer pointer.ty span)

/-- The value stored at a place. -/
def loadPlace (place : Place) : LowerM Value := build (Build.load place.address place.ty)

/-- Stores a value into a new immutable stack slot. -/
def spill (value : Value) (variableName : Option String) : LowerM Place := do
  let address ← build (Build.alloca value.ty variableName)
  build (Build.store address value)
  return ⟨address, value.ty, false⟩

/-! ### Fields and elements -/

/-- The indices that step from the address of a struct to one of its fields. -/
def fieldIndices (position : Nat) : List Value := [.int 0 .i32, .int position .i32]

/-- Follows `count` more references from a place. -/
def followReferences (span : Span) : (count : Nat) → Place → LowerM Place
  | 0, place => return place
  | count + 1, place => do
    let pointer ← loadPlace place
    followReferences span count (← derefPlace pointer span)

/-- The place below all references of a base, of which there are `references`. -/
def basePlace (walk : Walk) (base : ExprId) (references : Nat) (span : Span) : LowerM Place :=
  match references with
  | 0 => walk.place base
  | more + 1 =>
    thenLive .unreachable (walk.expr base) fun pointer => do
      followReferences span more (← derefPlace pointer span)

/-- The place of a field, which is mutable when its base is. -/
def fieldPlace (walk : Walk) (base : ExprId) (field : Name) (span : Span) : LowerM Place := do
  let (structTy, references) := walk.program.types.peelReferences (← walk.typeOf base)
  thenLive .unreachable (basePlace walk base references span) fun place => do
    match walk.program.types.structDef? structTy with
    | none => throw (.expectedStruct place.ty span)
    | some definition =>
      match definition.field? field with
      | none => throw (.unknownField (walk.text field) place.ty span)
      | some (position, fieldTy) =>
        let fieldTy ← lowerType walk.toSource fieldTy
        let address ← build (Build.gep place.ty place.address (fieldIndices position) fieldTy)
        return ⟨address, fieldTy, place.mutable⟩

/-- The place of an element, which is mutable when its base is. The base is computed before the
index. -/
def elementPlace (walk : Walk) (base position : ExprId) (span : Span) : LowerM Place := do
  let (_, references) := walk.program.types.peelReferences (← walk.typeOf base)
  thenLive .unreachable (basePlace walk base references span) fun place => do
    match place.ty with
    | .array elemTy _ =>
      thenLive .unreachable (walk.expr position) fun index => do
        let indices := [.int 0 index.ty, index]
        let address ← build (Build.gep place.ty place.address indices elemTy)
        return ⟨address, elemTy, place.mutable⟩
    | _ => throw (.indexNonArray place.ty span)

end TreeLowering.Lowering
