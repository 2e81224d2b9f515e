/-
This file lowers calls. The callee must be a single name that stands for a function; calls through
longer paths, through locals and through computed values are not supported.
-/

import TreeLowering.Lowering.Path

namespace TreeLowering.Lowering

open TreeLowering.Ir TreeLowering.Tree

/-- Arguments from left to right, then the call. -/
def lowerArgs (walk : Walk) (callee : Value) (ret : Ty) :
    (done : List Value) → List ExprId → LowerM Value
  | done, [] => build (Build.call callee done.reverse ret)
  | done, arg :: rest =>
    walk.withValue arg fun value => lowerArgs walk callee ret (value :: done) rest

def lowerCall (walk : Walk) (callee : ExprId) (args : List ExprId) (span : Span) :
    LowerM Value := do
  match (← walk.node callee).kind with
  | .path segments =>
    let name ← walk.singleName segments span
    let func ← calledFunction walk name span
    let calleeValue ← build (Build.ask fun target => target.functionRef func)
    let function ← build (Build.ask fun target => target.getFunction func)
    lowerArgs walk calleeValue function.ret [] args
  | _ => throw (.unsupported "indirect call" span)

end TreeLowering.Lowering
