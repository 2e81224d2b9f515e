/-
This file defines what the lowering of one construct is given: the program, the names that must
live in memory, and how the parts of the construct are lowered. It also holds the rule of dead
code. A construct whose part leaves no open block behind emits nothing more, and a placeholder
stands for its result.
-/

import TreeLowering.Lowering.Declare

namespace TreeLowering.Lowering

open TreeLowering.Ir TreeLowering.Tree

/-- An address together with what is stored there. -/
structure Place where
  address : Value
  ty : Ty
  mutable : Bool
deriving DecidableEq, Repr, Inhabited

/-- The stand-in for a place that control never reaches. -/
def Place.unreachable : Place := ⟨.undef (.ptr .never true), .never, true⟩

/-- What the lowering of a construct works with. -/
structure Walk extends Source where
  /-- The names of the current function that are bound to a stack slot although immutable. -/
  addressTaken : List Name
  /-- Lowers a part to its value. -/
  expr : ExprId → LowerM Value
  /-- Lowers a part to the address it denotes. -/
  place : ExprId → LowerM Place

/-- Runs `action`, and then `next` if there still is an open block; else `dead` is the result. -/
@[inline] def thenLive (dead : β) (action : LowerM α) (next : α → LowerM β) : LowerM β := do
  let result ← action
  if ← isLive then next result else return dead

namespace Walk

/-- The node of an expression. -/
def node (walk : Walk) (expr : ExprId) : LowerM Node :=
  match walk.program.arena.get? expr with
  | some node => return node
  | none => throw .malformedTree

/-- The resolved type of an expression. -/
def typeOf (walk : Walk) (expr : ExprId) : LowerM TypeId := return (← walk.node expr).ty

/-- The text of a name. -/
def text (walk : Walk) (name : Name) : String := walk.names.text name

/-- Lowers a part, and goes on with its value if there still is an open block. -/
@[inline] def withValue (walk : Walk) (expr : ExprId) (next : Value → LowerM Value) :
    LowerM Value :=
  thenLive .unreachable (walk.expr expr) next

end Walk

/-- A value that control never reaches takes the type of the place it is used in. -/
def retype (ty : Ty) (value : Value) : Value :=
  if value.isUndef then .undef ty else value

end TreeLowering.Lowering
