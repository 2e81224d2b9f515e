/-
This file lowers integer, struct and array literals. A struct or an array is built in a slot,
element by element, and then read as a whole, so that it is a value like any other.
-/

import TreeLowering.Lowering.Place

namespace TreeLowering.Lowering

open TreeLowering.Ir TreeLowering.Tree

/-- An integer literal has its own type when that is an integer type, and else `i32`. -/
def literalTy (ty : Ty) : Ty :=
  match ty with
  | .prim prim => if prim.isInteger then .prim prim else .i32
  | _ => .i32

def lowerInt (source : Source) (value : UInt64) (ty : TypeId) : LowerM Value := do
  let mapped ← lowerType source ty
  return .int value.toNat (literalTy mapped)

/-! ### Structs and arrays -/

/-- The indices that step from the address of an array literal to one of its elements. -/
def elementIndices (position : Nat) : List Value := [.int 0 .usize, .int position .usize]

/-- Stores one element of a literal into the slot it is built in. -/
def storeElement (wholeTy : Ty) (slot : Value) (indices : List Value) (elemTy : Ty)
    (value : Value) : LowerM Unit := do
  let address ← build (Build.gep wholeTy slot indices elemTy)
  build (Build.store address value)

/-- Fields from `position` on, in declared order, then the whole. -/
def lowerFields (walk : Walk) (structTy : Ty) (slot : Value) (inits : List FieldInit)
    (span : Span) : (position : Nat) → List (Name × TypeId) → LowerM Value
  | _, [] => build (Build.load slot structTy)
  | position, (field, fieldTy) :: rest =>
    match inits.find? fun init => init.name == field with
    | none => throw (.missingField (walk.text field) span)
    | some init =>
      walk.withValue init.value fun value => do
        let fieldTy ← lowerType walk.toSource fieldTy
        storeElement structTy slot (fieldIndices position) fieldTy value
        lowerFields walk structTy slot inits span (position + 1) rest

/-- The values of a struct literal are computed in the declared order of the fields, whatever
their order in the source. -/
def lowerStructLit (walk : Walk) (inits : List FieldInit) (ty : TypeId) (span : Span) :
    LowerM Value := do
  let structTy ← lowerType walk.toSource ty
  match walk.program.types.structDef? ty with
  | none => throw (.expectedStruct structTy span)
  | some definition =>
    match inits.find? fun init => (definition.fieldIndex? init.name).isNone with
    | some stray => throw (.unknownField (walk.text stray.name) structTy stray.span)
    | none =>
      let slot ← build (Build.alloca structTy none)
      lowerFields walk structTy slot inits span 0 definition.fields

/-- Elements from `position` on, then the whole. -/
def lowerElements (walk : Walk) (arrayTy elemTy : Ty) (slot : Value) :
    (position : Nat) → List ExprId → LowerM Value
  | _, [] => build (Build.load slot arrayTy)
  | position, elem :: rest =>
    walk.withValue elem fun value => do
      storeElement arrayTy slot (elementIndices position) elemTy value
      lowerElements walk arrayTy elemTy slot (position + 1) rest

def lowerArray (walk : Walk) (elems : List ExprId) (ty : TypeId) (span : Span) :
    LowerM Value := do
  let arrayTy ← lowerType walk.toSource ty
  match arrayTy with
  | .array elemTy _ =>
    let slot ← build (Build.alloca arrayTy none)
    lowerElements walk arrayTy elemTy slot 0 elems
  | _ => throw (.indexNonArray arrayTy span)

end TreeLowering.Lowering
