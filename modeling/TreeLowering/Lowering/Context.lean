/-
This file defines the state of a lowering run and how its parts are used: steps of the builder and
of the type mapping run inside it, and scopes, functions and loops are entered for the time of one
action and left again even when the action fails.
-/

import TreeLowering.Lowering.Build.Copy
import TreeLowering.Lowering.Env
import TreeLowering.Lowering.TypeMap

namespace TreeLowering.Lowering

open TreeLowering.Ir TreeLowering.Tree

/-- The state of a lowering run. -/
structure Context where
  builder : Builder
  env : Env
  memo : TypeMemo
  /-- The address of the global of each string literal met so far. -/
  strings : List (String × Value)
  /-- The scope in which names are looked up. -/
  scope : ScopeId
deriving Inhabited

/-- The state a run starts from. -/
def Context.start (options : Options) : Context :=
  { builder := .start options, env := .empty, memo := .empty, strings := [], scope := .root }

/-- Steps of a run: a failed step keeps what it has done so far. -/
abbrev LowerM := EStateM Error Context

/-! ### Parts of the state -/

/-- Runs a step of the builder. -/
@[inline] def build (action : BuildM α) : LowerM α := fun context =>
  let { builder, env, memo, strings, scope } := context
  match action builder with
  | .ok result builder => .ok result { builder, env, memo, strings, scope }
  | .error cause builder => .error cause { builder, env, memo, strings, scope }

/-- Runs a step of the type mapping. -/
def mapping (action : TypeM α) : LowerM α := fun context =>
  match action ⟨context.memo, context.builder.target⟩ with
  | .ok result ⟨memo, target⟩ =>
    .ok result { context with memo, builder := { context.builder with target } }
  | .error cause ⟨memo, target⟩ =>
    .error cause { context with memo, builder := { context.builder with target } }

/-- The type of the instruction set for a resolved type. -/
def lowerType (source : Source) (ty : TypeId) : LowerM Ty := mapping (mapType source ty)

/-- Changes the environment. -/
@[inline] def modifyEnv (change : Env → Env) : LowerM Unit :=
  modify fun context => { context with env := change context.env }

/-- Whether there is a block to emit into. -/
@[inline] def isLive : LowerM Bool := return (← get).builder.cursor.isSome

/-- The function being lowered. -/
def currentFunction : LowerM FuncId := build Build.currentFunction

/-- What the environment binds a name to. -/
def localBinding? (name : Name) : LowerM (Option Binding) :=
  return (← get).env.resolve? name

/-! ### Scopes -/

/-- Enters a scope, for local names and for lookups. -/
def Context.enterScope (context : Context) (scope : ScopeId) : Context :=
  { context with env := context.env.enterScope, scope }

/-- Leaves the innermost scope and goes back to looking names up in `scope`. -/
def Context.leaveScope (context : Context) (scope : ScopeId) : Context :=
  { context with env := context.env.leaveScope, scope }

/-- Runs `action` inside a scope, which is left again even when `action` fails. -/
def inScope (scope : ScopeId) (action : LowerM α) : LowerM α := fun context =>
  let saved := context.scope
  match action (context.enterScope scope) with
  | .ok result after => .ok result (after.leaveScope saved)
  | .error cause after => .error cause (after.leaveScope saved)

/-- Runs `action` as the body of a function, whose frame is dropped even when `action` fails. -/
def inFunction (ret : Ty) (action : LowerM α) : LowerM α := fun context =>
  match action { context with env := context.env.pushFunction ret } with
  | .ok result after => .ok result { after with env := after.env.popFunction }
  | .error cause after => .error cause { after with env := after.env.popFunction }

/-- Runs `action` as the body of a loop, whose targets are dropped even when `action` fails. -/
def inLoop (targets : LoopTargets) (action : LowerM α) : LowerM α := fun context =>
  match action { context with env := context.env.pushLoop targets } with
  | .ok result after => .ok result { after with env := after.env.popLoop }
  | .error cause after => .error cause { after with env := after.env.popLoop }

/-- What a name stands for, looked up from the current scope. -/
def resolveSymbol? (source : Source) (name : Name) (nameClass : NameClass) :
    LowerM (Option Symbol) :=
  return source.program.scopes.resolve? (← get).scope name nameClass

end TreeLowering.Lowering
