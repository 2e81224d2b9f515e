/-
This file lowers blocks and `let`, the constructs that bind names. A name is bound to its value when
nothing needs its address, and else to a stack slot.
-/

import TreeLowering.Lowering.Walk

namespace TreeLowering.Lowering

open TreeLowering.Ir TreeLowering.Tree

/-! ### Let -/

/-- Binds an immutable name straight to its value. -/
def bindValue (name : Name) (value : Value) : LowerM Unit := do
  build (Build.pin value)
  modifyEnv fun env => env.bind name (.value value)

/-- The type of a slot: the declared one, or that of the initialiser when it was left open. -/
def slotType (walk : Walk) (ty : TypeId) (init : Option ExprId) : LowerM TypeId :=
  if ty = .infer then
    match init with
    | some init => walk.typeOf init
    | none => return ty
  else return ty

/-- Binds a name to a new slot, and stores the value there when there is one. A name without a
value is mutable, since its first assignment is still to come. -/
def bindSlot (walk : Walk) (name : Name) (mutable : Bool) (ty : TypeId) (init : Option ExprId)
    (value : Option Value) : LowerM Unit := do
  let ty ← lowerType walk.toSource (← slotType walk ty init)
  let address ← build (Build.alloca ty (walk.text name))
  if let some value := value then
    build (Build.store address value)
  modifyEnv fun env => env.bind name (.slot address ty (mutable || value.isNone))

/-- An immutable name with a value is bound to the value itself unless its address is needed;
every other name gets a slot. -/
def lowerLet (walk : Walk) (name : Name) (mutable : Bool) (ty : TypeId) (init : Option ExprId) :
    LowerM Unit :=
  match init with
  | none => bindSlot walk name mutable ty none none
  | some initExpr =>
    thenLive () (walk.expr initExpr) fun value =>
      if mutable || walk.addressTaken.contains name then
        bindSlot walk name mutable ty init (some value)
      else bindValue name value

/-! ### Blocks -/

def lowerStmt (walk : Walk) : Stmt → LowerM Unit
  | .bind (.ident name mutable) ty init _ => lowerLet walk name mutable ty init
  | .bind .wildcard _ (some init) _ => discard (walk.expr init)
  | .bind .wildcard _ none _ => return ()
  | .bind .tuple _ _ span => throw (.unsupported "destructuring pattern" span)
  | .expr value => discard (walk.expr value)
  | .semi value => discard (walk.expr value)
  | .item span => throw (.unsupported "nested item" span)

/-- Statements in order, then the tail. What follows a statement that closed the block is skipped,
and a block without a tail yields the unit value. -/
def lowerStmts (walk : Walk) : List Stmt → (tail : Option ExprId) → LowerM Value
  | [], some tail => walk.expr tail
  | [], none => return .unit
  | stmt :: rest, tail =>
    thenLive .unreachable (lowerStmt walk stmt) fun _ => lowerStmts walk rest tail

def lowerBlock (walk : Walk) (scope : ScopeId) (stmts : List Stmt) (tail : Option ExprId) :
    LowerM Value :=
  inScope scope (lowerStmts walk stmts tail)

end TreeLowering.Lowering
