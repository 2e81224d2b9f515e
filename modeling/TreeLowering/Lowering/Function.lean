/-
This file lowers functions: parameters are bound first, then the body is lowered, and its value is
returned when control reaches the end.
-/

import TreeLowering.Lowering.Expr
import TreeLowering.Tree.AddressTaken

namespace TreeLowering.Lowering

open TreeLowering.Ir TreeLowering.Tree

/-- Binds one parameter. A mutable parameter and one whose address is needed get a slot. -/
def bindParam (source : Source) (taken : List Name) (param : Tree.Param) (value : Value) :
    LowerM Unit := do
  if param.mutable || taken.contains param.name then
    let place ← spill value (source.names.text param.name)
    modifyEnv fun env => env.bind param.name (.slot place.address place.ty param.mutable)
  else
    modifyEnv fun env => env.bind param.name (.param value)

/-- Binds parameters from `position` on. -/
def bindParams (source : Source) (taken : List Name) (func : FuncId) :
    (position : Nat) → List Tree.Param → LowerM Unit
  | _, [] => return ()
  | position, param :: rest => do
    let function ← build (Build.ask fun target => target.getFunction func)
    match function.paramValue? position with
    | none => throw (.unresolvedName (source.names.text param.name) param.span)
    | some value =>
      bindParam source taken param value
      bindParams source taken func (position + 1) rest

/-- Lowers the body of a function into the function declared for it. -/
def lowerFunction (source : Source) (decl : FunctionDecl) (func : FuncId) : LowerM Unit := do
  match decl.body with
  | none => return ()
  | some body =>
    let entry ← build (Build.ensureEntry func)
    let function ← build (Build.ask fun target => target.getFunction func)
    build (Build.positionAt func entry)
    let taken := source.program.addressTaken body
    inFunction function.ret do
      inScope decl.scope do
        bindParams source taken func 0 decl.params
        thenLive () (lowerExpr source taken body) (finishBody function.ret)

/-- A function without a body is left as it was declared. -/
theorem lowerFunction_external {source : Source} {decl : FunctionDecl} (external : decl.body = none)
    (func : FuncId) : lowerFunction source decl func = pure () := by
  rw [lowerFunction, external]

end TreeLowering.Lowering
