/-
This file lowers assignments and borrows, the constructs that use a place. Writing through a place,
and borrowing it so that others can write, need a mutable one.
-/

import TreeLowering.Lowering.Operator
import TreeLowering.Lowering.Place

namespace TreeLowering.Lowering

open TreeLowering.Ir TreeLowering.Tree

/-- Lowers the target of an assignment, which must be mutable. -/
@[inline] def withTarget (walk : Walk) (target : ExprId) (span : Span)
    (next : Place → LowerM Value) : LowerM Value :=
  thenLive .unreachable (walk.place target) fun place =>
    if place.mutable then next place else throw (.immutablePlace span)

/-- The target is found before the value is computed. -/
def lowerAssign (walk : Walk) (target value : ExprId) (span : Span) : LowerM Value :=
  withTarget walk target span fun place =>
    walk.withValue value fun value => do
      build (Build.store place.address value)
      return .unit

/-- The target is read before the other operand is computed. -/
def lowerCompound (walk : Walk) (op : BinaryOp) (target value : ExprId) (span : Span) :
    LowerM Value :=
  withTarget walk target span fun place => do
    let current ← loadPlace place
    walk.withValue value fun value => do
      let combined ← emitBinary op current value span
      build (Build.store place.address combined)
      return .unit

/-- A borrow is the address of its operand, converted when its pointer type is another one. -/
def lowerBorrow (walk : Walk) (mutable : Bool) (operand : ExprId) (span : Span) : LowerM Value :=
  thenLive .unreachable (walk.place operand) fun place => do
    if mutable && !place.mutable then
      throw (.immutablePlace span)
    let wanted := Ty.ptr place.ty mutable
    if place.address.ty = wanted then return place.address
    build (Build.cast .bitcast place.address wanted)

end TreeLowering.Lowering
