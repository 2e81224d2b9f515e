/-
This file lowers expressions. Every expression lowers to a value, and an expression that is assigned
to, borrowed or accessed by field or index lowers to a place instead. The two ways call each other
through the parts of an expression, and a bound on the depth makes the recursion end; a tree that
does not contain itself never reaches the bound. An expression that does contain itself is lowered
round after round, until an error or a jump ends it.
-/

import TreeLowering.Lowering.Assign
import TreeLowering.Lowering.Block
import TreeLowering.Lowering.Call
import TreeLowering.Lowering.Conversion
import TreeLowering.Lowering.Literal
import TreeLowering.Lowering.Loop
import TreeLowering.Lowering.Operator
import TreeLowering.Lowering.Path
import TreeLowering.Lowering.Return

namespace TreeLowering.Lowering

open TreeLowering.Ir TreeLowering.Tree

/-- Lowers an expression to its value; in dead code nothing is emitted. -/
def lowerNode (walk : Walk) (expr : ExprId) : LowerM Value := do
  if !(← isLive) then
    return .unreachable
  let { kind, span, ty } ← walk.node expr
  match kind with
  | .int value => lowerInt walk.toSource value ty
  | .bool value => return .bool value
  | .char value => return .char value
  | .str text => stringLiteral (walk.text text)
  | .unit => return .unit
  | .path segments => lowerPath walk segments span
  | .binary op left right => lowerBinary walk op left right span
  | .unary op operand => lowerUnary walk op operand
  | .assign target value => lowerAssign walk target value span
  | .compound op target value => lowerCompound walk op target value span
  | .borrow mutable operand => lowerBorrow walk mutable operand span
  | .cast operand => lowerCast walk operand ty span
  | .deref _ | .field .. | .index .. =>
    thenLive .unreachable (walk.place expr) loadPlace
  | .block scope stmts tail => lowerBlock walk scope stmts tail
  | .cond test thenArm elseArm => lowerCond walk test thenArm elseArm ty span
  | .whileLoop test body => lowerWhile walk test body span
  | .loop body => lowerLoop walk body ty
  | .breakLoop => lowerLoopJump .leave span
  | .continueLoop => lowerLoopJump .again span
  | .returnWith value => lowerReturn walk value span
  | .call callee args => lowerCall walk callee args span
  | .structLit inits => lowerStructLit walk inits ty span
  | .array elems => lowerArray walk elems ty span
  | .methodCall .. | .tuple _ | .select _ => throw (.unsupported kind.describe span)

/-- Lowers an expression to the address it denotes. An expression without a home of its own is
computed into a new immutable slot. -/
def lowerNodePlace (walk : Walk) (expr : ExprId) : LowerM Place := do
  if !(← isLive) then
    return .unreachable
  let { kind, span, .. } ← walk.node expr
  match kind with
  | .path segments => pathPlace walk segments span
  | .deref operand =>
    thenLive .unreachable (walk.expr operand) fun pointer => derefPlace pointer span
  | .field base field => fieldPlace walk base field span
  | .index base position => elementPlace walk base position span
  | .assign .. | .compound .. | .whileLoop .. | .loop _ | .breakLoop | .continueLoop
  | .returnWith _ => throw (.notAddressable kind.describe span)
  | _ => thenLive .unreachable (walk.expr expr) fun value => spill value none

mutual

/-- Lowers an expression to its value, through at most `fuel` levels. -/
def lowerWithin (source : Source) (taken : List Name) : (fuel : Nat) → ExprId → LowerM Value
  | 0, _ => throw .malformedTree
  | fuel + 1, expr =>
    lowerNode ⟨source, taken, lowerWithin source taken fuel, placeWithin source taken fuel⟩ expr

/-- Lowers an expression to the address it denotes, through at most `fuel` levels. -/
def placeWithin (source : Source) (taken : List Name) : (fuel : Nat) → ExprId → LowerM Place
  | 0, _ => throw .malformedTree
  | fuel + 1, expr =>
    lowerNodePlace ⟨source, taken, lowerWithin source taken fuel, placeWithin source taken fuel⟩
      expr

end

/-- How often the lowering of an expression that contains itself may go round before it meets an
error or a jump. -/
def roundLimit : Nat := 0x100000000

/-- How deep the lowering of a tree can go. When no expression contains itself, each is met at most
twice on the way down, once for its value and once for its place. -/
def Source.exprDepth (source : Source) : Nat := 2 * (source.program.arena.size + roundLimit) + 2

/-- Lowers an expression, given the names whose address is needed. -/
def lowerExpr (source : Source) (taken : List Name) (expr : ExprId) : LowerM Value :=
  lowerWithin source taken source.exprDepth expr

end TreeLowering.Lowering
