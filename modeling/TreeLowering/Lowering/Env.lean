/-
This file defines what lowering knows about local names and about the function it is in. Scopes
form a stack that follows the nesting of blocks, and a name means its binding in the innermost
scope that has one. Each function has a frame with its return type and its stack of loops, so that
leaving a loop brings back the targets of the loop around it.
-/

import TreeLowering.Lowering.Error
import TreeLowering.Tree.Name

namespace TreeLowering.Lowering

open TreeLowering.Ir TreeLowering.Tree

/-- What a local name is bound to. -/
inductive Binding where
  /-- An immutable value, used as it is. -/
  | value (value : Value)
  /-- A stack slot. -/
  | slot (address : Value) (ty : Ty) (mutable : Bool)
  /-- A parameter that is used as it is. -/
  | param (value : Value)
deriving DecidableEq, Repr

/-- The two targets of a loop. -/
structure LoopTargets where
  breakTo : BlockId
  continueTo : BlockId
deriving DecidableEq, Repr

/-- A function being lowered; the innermost loop comes first. -/
structure Frame where
  ret : Ty
  loops : List LoopTargets
deriving DecidableEq, Repr

/-- Scopes and frames, innermost first. -/
structure Env where
  scopes : List (List (Name × Binding))
  frames : List Frame
deriving DecidableEq, Repr

namespace Env

/-- The environment outside all scopes and functions. -/
def empty : Env := ⟨[], []⟩

instance : Inhabited Env := ⟨empty⟩

/-! ### Scopes -/

def enterScope (env : Env) : Env := { env with scopes := [] :: env.scopes }

def leaveScope (env : Env) : Env := { env with scopes := env.scopes.tail }

@[simp] theorem leaveScope_enterScope (env : Env) : env.enterScope.leaveScope = env := rfl

/-- How many scopes are open. -/
def depth (env : Env) : Nat := env.scopes.length

/-- Binds a name in the innermost scope; without an open scope one is opened. -/
def bind (env : Env) (name : Name) (binding : Binding) : Env :=
  match env.scopes with
  | [] => { env with scopes := [[(name, binding)]] }
  | scope :: outer => { env with scopes := ((name, binding) :: scope) :: outer }

/-- The nearest binding of a name. -/
def resolve? (env : Env) (name : Name) : Option Binding :=
  env.scopes.findSome? fun scope => scope.lookup name

@[simp] theorem resolve?_bind (env : Env) (name : Name) (binding : Binding) :
    (env.bind name binding).resolve? name = some binding := by
  unfold bind resolve?
  split <;> simp [List.lookup_cons_self]

@[simp] theorem leaveScope_bind (env : Env) (name : Name) (binding : Binding) :
    (env.bind name binding).leaveScope = env.leaveScope := by
  obtain ⟨scopes, frames⟩ := env
  cases scopes <;> rfl

@[simp] theorem frames_bind (env : Env) (name : Name) (binding : Binding) :
    (env.bind name binding).frames = env.frames := by
  obtain ⟨scopes, frames⟩ := env
  cases scopes <;> rfl

/-! ### Frames -/

def pushFunction (env : Env) (ret : Ty) : Env := { env with frames := ⟨ret, []⟩ :: env.frames }

def popFunction (env : Env) : Env := { env with frames := env.frames.tail }

@[simp] theorem popFunction_pushFunction (env : Env) (ret : Ty) :
    (env.pushFunction ret).popFunction = env := rfl

def returnType? (env : Env) : Option Ty := env.frames.head?.map Frame.ret

/-- Changes the innermost frame, if there is one. -/
def modifyFrame (env : Env) (change : Frame → Frame) : Env :=
  match env.frames with
  | [] => env
  | frame :: outer => { env with frames := change frame :: outer }

/-- Enters a loop of the current function. -/
def pushLoop (env : Env) (targets : LoopTargets) : Env :=
  env.modifyFrame fun frame => { frame with loops := targets :: frame.loops }

/-- Leaves the innermost loop of the current function. -/
def popLoop (env : Env) : Env :=
  env.modifyFrame fun frame => { frame with loops := frame.loops.tail }

@[simp] theorem popLoop_pushLoop (env : Env) (targets : LoopTargets) :
    (env.pushLoop targets).popLoop = env := by
  obtain ⟨scopes, frames⟩ := env
  cases frames <;> rfl

def innermostLoop? (env : Env) : Option LoopTargets := do
  let frame ← env.frames.head?
  frame.loops.head?

/-- Where a jump out of, or back to the start of, the innermost loop goes. -/
def target? (env : Env) (jump : LoopJump) : Option BlockId :=
  env.innermostLoop?.map fun targets =>
    match jump with
    | .leave => targets.breakTo
    | .again => targets.continueTo

end Env

end TreeLowering.Lowering
