/-
This file lowers the constructs that choose between two ways: short-circuit operators and
conditionals. Both leave the cursor in the block where the ways meet. A way that closed its own
block gets no jump to that block.
-/

import TreeLowering.Lowering.Walk

namespace TreeLowering.Lowering

open TreeLowering.Ir TreeLowering.Tree

/-- A condition must have type `bool`. -/
def expectBool (value : Value) (span : Span) : LowerM Unit :=
  if value.ty.isBool then pure () else throw (.nonBoolCondition value.ty span)

/-! ### Short circuits -/

/-- Where a short-circuit operator goes next: to its right operand when the left one leaves the
result open, and else straight to the end. -/
def shortCircuitBranch (isAnd : Bool) (left : Value) (rightBlock merge : BlockId) :
    BuildM Unit :=
  if isAnd then Build.branch left rightBlock merge else Build.branch left merge rightBlock

/-- The result of a short-circuit operator travels through a slot: the left operand is stored
first, and the right one replaces it on the path that evaluates it. -/
def lowerShortCircuit (walk : Walk) (isAnd : Bool) (left right : ExprId) (span : Span) :
    LowerM Value :=
  walk.withValue left fun left => do
    expectBool left span
    let func ← currentFunction
    let slot ← build (Build.alloca .bool none)
    build (Build.store slot left)
    let rightBlock ← build (Build.newBlock (if isAnd then "and.rhs" else "or.rhs"))
    let merge ← build (Build.newBlock (if isAnd then "and.merge" else "or.merge"))
    build (shortCircuitBranch isAnd left rightBlock merge)
    build (Build.positionAt func rightBlock)
    let right ← walk.expr right
    if ← isLive then
      build (Build.store slot right)
      build (Build.jump merge)
    build (Build.positionAt func merge)
    build (Build.load slot .bool)

/-! ### Conditionals -/

/-- A conditional without an else arm; control goes on behind the arm, and the result is unit. -/
def lowerWhen (walk : Walk) (test : Value) (func : FuncId) (thenBlock : BlockId)
    (thenArm : ExprId) : LowerM Value := do
  let merge ← build (Build.newBlock "merge")
  build (Build.branch test thenBlock merge)
  build (Build.positionAt func thenBlock)
  let _ ← walk.expr thenArm
  if ← isLive then
    build (Build.jump merge)
  build (Build.positionAt func merge)
  return .unit

/-- Lowers an arm in its block; yields its value and the block it ends in, if that is open. -/
def lowerArm (walk : Walk) (func : FuncId) (block : BlockId) (arm : ExprId) :
    LowerM (Option (Value × BlockId)) := do
  build (Build.positionAt func block)
  let value ← walk.expr arm
  return (← get).builder.cursor.map fun cursor => (value, cursor.block)

/-- Jumps from the end of an arm to the block where both arms meet. -/
def jumpFrom (func : FuncId) (merge : BlockId) (arm : Value × BlockId) : LowerM Unit := do
  build (Build.positionAt func arm.2)
  build (Build.jump merge)

/-- The value of a conditional whose arms meet: the only one that reaches the end, or a phi. -/
def mergeValue (ty : Ty) (incoming : List (Value × BlockId)) : LowerM Value :=
  match incoming.map fun arm => (retype ty arm.1, arm.2) with
  | [(value, _)] => return value
  | incoming => build (Build.phi ty incoming)

/-- Joins the arms that reach their end. The block where they meet is made after everything the
arms have made, and not at all when no arm gets there. -/
def joinArms (walk : Walk) (func : FuncId) (ty : TypeId) (incoming : List (Value × BlockId)) :
    LowerM Value := do
  if incoming.isEmpty then
    return .unreachable
  let merge ← build (Build.newBlock "merge")
  incoming.forM (jumpFrom func merge)
  build (Build.positionAt func merge)
  let ty ← lowerType walk.toSource ty
  if ty.isVoid then return .unit
  mergeValue ty incoming

def lowerCond (walk : Walk) (test thenArm : ExprId) (elseArm : Option ExprId) (ty : TypeId)
    (span : Span) : LowerM Value :=
  walk.withValue test fun test => do
    expectBool test span
    let func ← currentFunction
    let thenBlock ← build (Build.newBlock "then")
    match elseArm with
    | none => lowerWhen walk test func thenBlock thenArm
    | some elseArm =>
      let elseBlock ← build (Build.newBlock "else")
      build (Build.branch test thenBlock elseBlock)
      let first ← lowerArm walk func thenBlock thenArm
      let second ← lowerArm walk func elseBlock elseArm
      joinArms walk func ty (first.toList ++ second.toList)

end TreeLowering.Lowering
