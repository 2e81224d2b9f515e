/-
This file proves that every expression is lowered soundly, whatever it is made of. One level of an
expression is sound when its parts are, and the depth of the tree carries this through.
-/

import TreeLowering.Proofs.Flow.Loop

namespace TreeLowering.Lowering

open TreeLowering.Ir TreeLowering.Tree Moment

section Expr

variable {now : Moment} {context : Context} {walk : Walk}

theorem ensures_whenLive {α : Type} {dead : α} {action : LowerM α} {post : α → Context → Prop}
    (standing : Standing now now context.env context) (ensured : Ensures action context post) :
    Ensures (do if !(← isLive) then return dead else action) context post := by
  have live : context.builder.cursor.isSome = true := by
    rw [standing.building]
    exact standing.live
  rw [ensures_bind, ensures_isLive, live]
  exact ensured

theorem Standing.lowerBinary (standing : Standing now now context.env context) (sound : walk.Sound)
    (op : BinaryOp) (left right : ExprId) (span : Span) :
    Ensures (lowerBinary walk op left right span) context
      (Yields now context.env (Produced now)) := by
  unfold Lowering.lowerBinary
  split_ifs
  · exact standing.lowerShortCircuit sound _ left right span
  · exact standing.lowerEager sound op left right span

theorem Standing.lowerNode (standing : Standing now now context.env context) (sound : walk.Sound)
    (expr : ExprId) :
    Ensures (lowerNode walk expr) context (Yields now context.env (Produced now)) := by
  refine ensures_whenLive standing ?_
  rw [ensures_bind]
  refine ensures_node walk expr fun node _ => ?_
  obtain ⟨kind, span, ty⟩ := node
  have load : Ensures (Lowering.thenLive .unreachable (walk.place expr) Lowering.loadPlace) context
      (Yields now context.env (Produced now)) :=
    standing.thenLive (sound.place standing expr) fun _ _ _ standing' _ address =>
      standing'.loadPlace address
  cases kind with
  | int value => exact standing.lowerInt walk.toSource value ty
  | bool value => exact standing.constant (fun _ _ => trivial) rfl
  | char value => exact standing.constant (fun _ _ => trivial) rfl
  | str text => exact standing.stringLiteral _
  | unit => exact standing.constant (fun _ _ => trivial) rfl
  | path segments => exact standing.lowerPath segments span
  | binary op left right => exact standing.lowerBinary sound op left right span
  | unary op operand => exact standing.lowerUnary sound op operand
  | assign target value => exact standing.lowerAssign sound target value span
  | compound op target value => exact standing.lowerCompound sound op target value span
  | borrow mutable operand => exact standing.lowerBorrow sound mutable operand span
  | cast operand => exact standing.lowerCast sound operand ty span
  | deref operand => exact load
  | field base field => exact load
  | index base position => exact load
  | block scope stmts tail => exact standing.lowerBlock sound scope stmts tail
  | cond test thenArm elseArm => exact standing.lowerCond sound test thenArm elseArm ty span
  | whileLoop test body => exact standing.lowerWhile sound test body span
  | loop body => exact standing.lowerLoop sound body ty
  | breakLoop => exact standing.lowerLoopJump .leave span
  | continueLoop => exact standing.lowerLoopJump .again span
  | returnWith value => exact standing.lowerReturn sound value span
  | call callee args => exact standing.lowerCall sound callee args span
  | structLit inits => exact standing.lowerStructLit sound inits ty span
  | array elems => exact standing.lowerArray sound elems ty span
  | methodCall receiver method args => rfl
  | tuple elems => rfl
  | select arms => rfl

theorem Standing.lowerNodePlace (standing : Standing now now context.env context)
    (sound : walk.Sound) (expr : ExprId) :
    Ensures (lowerNodePlace walk expr) context (Yields now context.env PlaceOk) := by
  refine ensures_whenLive standing ?_
  rw [ensures_bind]
  refine ensures_node walk expr fun node _ => ?_
  obtain ⟨kind, span, ty⟩ := node
  have homeless : Ensures (Lowering.thenLive .unreachable (walk.expr expr) fun value =>
      Lowering.spill value none) context (Yields now context.env PlaceOk) :=
    standing.thenLive (sound.expr standing expr) fun _ _ _ standing' _ produced =>
      standing'.spill produced none
  have nowhere : Ensures (throw (.notAddressable kind.describe span) : LowerM Place) context
      (Yields now context.env PlaceOk) := rfl
  cases kind with
  | path segments => exact standing.pathPlace segments span
  | deref operand =>
    exact standing.thenLive (sound.expr standing operand) fun _ _ _ standing' _ produced =>
      ensures_derefPlace produced.reads span fun _ => standing'.yields
  | field base field => exact standing.fieldPlace sound base field span
  | index base position => exact standing.elementPlace sound base position span
  | assign target value => exact nowhere
  | compound op target value => exact nowhere
  | whileLoop test body => exact nowhere
  | loop body => exact nowhere
  | breakLoop => exact nowhere
  | continueLoop => exact nowhere
  | returnWith value => exact nowhere
  | _ => exact homeless

end Expr

/-- Both ways to lower an expression are sound at every depth. -/
theorem within_sound (source : Source) (taken : List Name) (fuel : Nat) :
    Walk.Sound ⟨source, taken, lowerWithin source taken fuel, placeWithin source taken fuel⟩ := by
  induction fuel with
  | zero => exact ⟨fun _ _ => rfl, fun _ _ => rfl⟩
  | succ fuel inductionHypothesis =>
    exact ⟨fun standing part => standing.lowerNode inductionHypothesis part,
      fun standing part => standing.lowerNodePlace inductionHypothesis part⟩

end TreeLowering.Lowering
