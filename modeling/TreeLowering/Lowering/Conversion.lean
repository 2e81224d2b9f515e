/-
This file lowers conversions between types. Scalars are cut, filled up or kept as they are, by the
sizes of both types; a pointer can only become another pointer.
-/

import TreeLowering.Lowering.Walk

namespace TreeLowering.Lowering

open TreeLowering.Ir TreeLowering.Tree

/-- How a scalar is converted: by the sizes of both types, and by the sign of the first. -/
def scalarCast (found wanted : Prim) : CastKind :=
  if wanted.size < found.size then .trunc
  else if found.size < wanted.size then (if found.isSigned then .sext else .zext)
  else .bitcast

/-- How a value is converted to another type, if it can be. -/
def castKind? (found wanted : Ty) : Option CastKind :=
  match found, wanted with
  | .prim found, .prim wanted =>
    if found.isVoid || wanted.isVoid then none else some (scalarCast found wanted)
  | .ptr .., .ptr .. => some .bitcast
  | _, _ => none

/-- A conversion to the type a value already has emits nothing. -/
def lowerCast (walk : Walk) (operand : ExprId) (ty : TypeId) (span : Span) : LowerM Value :=
  walk.withValue operand fun value => do
    let wanted ← lowerType walk.toSource ty
    if value.ty = wanted then return value
    match castKind? value.ty wanted with
    | some kind => build (Build.cast kind value wanted)
    | none => throw (.unsupportedCast value.ty wanted span)

end TreeLowering.Lowering
