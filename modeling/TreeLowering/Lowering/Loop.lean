/-
This file lowers loops and the jumps inside them. Each loop leaves the cursor in its exit block,
and a body that closed its own block gets no jump back.
-/

import TreeLowering.Lowering.Branch

namespace TreeLowering.Lowering

open TreeLowering.Ir TreeLowering.Tree

/-- Lowers the body of a loop in its block and jumps back to where the loop starts over. -/
def lowerLoopBody (walk : Walk) (func : FuncId) (block : BlockId) (targets : LoopTargets)
    (body : ExprId) : LowerM Unit := do
  build (Build.positionAt func block)
  let _ ← inLoop targets (walk.expr body)
  if ← isLive then
    build (Build.jump targets.continueTo)

/-- The body and the exit are made only when the condition can reach them. -/
def lowerWhile (walk : Walk) (test body : ExprId) (span : Span) : LowerM Value := do
  let func ← currentFunction
  let testBlock ← build (Build.newBlock "while.cond")
  build (Build.jump testBlock)
  build (Build.positionAt func testBlock)
  walk.withValue test fun test => do
    expectBool test span
    let bodyBlock ← build (Build.newBlock "while.body")
    let exit ← build (Build.newBlock "while.exit")
    build (Build.branch test bodyBlock exit)
    lowerLoopBody walk func bodyBlock ⟨exit, testBlock⟩ body
    build (Build.positionAt func exit)
    return .unit

/-- Only a jump leads out of an endless loop. One of type never yields the placeholder, although
the cursor is left in its exit block. -/
def lowerLoop (walk : Walk) (body : ExprId) (ty : TypeId) : LowerM Value := do
  let func ← currentFunction
  let bodyBlock ← build (Build.newBlock "loop.body")
  let exit ← build (Build.newBlock "loop.exit")
  build (Build.jump bodyBlock)
  lowerLoopBody walk func bodyBlock ⟨exit, bodyBlock⟩ body
  build (Build.positionAt func exit)
  return if ty = .never then .unreachable else .unit

/-! ### Jumps -/

/-- A jump to an edge of the innermost loop. -/
def lowerLoopJump (jump : LoopJump) (span : Span) : LowerM Value := do
  match (← get).env.target? jump with
  | some target =>
    build (Build.jump target)
    return .unreachable
  | none => throw (.outsideLoop jump span)

end TreeLowering.Lowering
