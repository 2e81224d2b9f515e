/-
This file lowers returns: those written in a body, and the one that stands at its end.
-/

import TreeLowering.Lowering.Walk

namespace TreeLowering.Lowering

open TreeLowering.Ir TreeLowering.Tree

/-- Closes the block with a return; a function without a result returns nothing. -/
def returnValue (ret : Ty) (value : Value) : LowerM Value := do
  build (Build.ret (if ret.isVoid then none else some value))
  return .unreachable

def lowerReturn (walk : Walk) (value : Option ExprId) (span : Span) : LowerM Value := do
  match (← get).env.returnType? with
  | none => throw (.returnOutsideFunction span)
  | some ret =>
    match value with
    | some value => walk.withValue value (returnValue ret)
    | none =>
      build (Build.ret none)
      return .unreachable

/-- Returns the value of a body when control reaches its end. -/
def finishBody (ret : Ty) (value : Value) : LowerM Unit :=
  build (Build.ret (if ret.isVoid then none else some (retype ret value)))

end TreeLowering.Lowering
