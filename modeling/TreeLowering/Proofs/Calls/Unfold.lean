/-
This file reads off what a run that returned has done: it was at a construct that control reaches, and
went on from one part to the next as long as control got behind the part.
-/

import TreeLowering.Proofs.Calls.Mirror

namespace TreeLowering.Lowering

open TreeLowering.Ir TreeLowering.Tree

variable {α β : Type} {walk : Walk} {expr : ExprId} {before after : Context} {span : Span}
  {ty : TypeId}

theorem isLive_of_live (live : before.Live) : isLive before = .ok true before :=
  congrArg (EStateM.Result.ok · before) live

/-- What follows a part was done, or the run ended with the part. -/
theorem thenLive_ok {dead result : β} {action : LowerM α} {next : α → LowerM β}
    (returned : thenLive dead action next before = .ok result after) :
    ∃ value middle, action before = .ok value middle ∧
      (middle.Live ∧ next value middle = .ok result after ∨
        ¬ middle.Live ∧ result = dead ∧ after = middle) := by
  obtain ⟨value, middle, part, returned⟩ := run_bind_ok returned
  refine ⟨value, middle, part, ?_⟩
  have asked : isLive middle = .ok middle.builder.cursor.isSome middle := rfl
  rw [run_bind asked] at returned
  split at returned
  · next live => exact .inl ⟨live, returned⟩
  · next dead =>
    cases returned
    exact .inr ⟨dead, rfl, rfl⟩

/-- Where control gets behind the whole, what follows the part was done. -/
theorem thenLive_live {dead result : β} {action : LowerM α} {next : α → LowerM β}
    (returned : thenLive dead action next before = .ok result after) (live : after.Live) :
    ∃ value middle, action before = .ok value middle ∧ middle.Live ∧
      next value middle = .ok result after := by
  obtain ⟨value, middle, part, ⟨alive, rest⟩ | ⟨dead, _, rfl⟩⟩ := thenLive_ok returned
  · exact ⟨value, middle, part, alive, rest⟩
  · exact absurd live dead

/-- What follows a part that control gets behind is done. -/
theorem run_thenLive {dead : β} {action : LowerM α} {next : α → LowerM β} {value : α}
    {middle : Context} (part : action before = .ok value middle) (live : middle.Live) :
    thenLive dead action next before = next value middle := by
  have asked : isLive middle = .ok true middle := isLive_of_live live
  unfold thenLive
  rw [run_bind part, run_bind asked]
  rfl

/-- The run ends with a part that control does not get behind. -/
theorem run_thenLive_dead {dead : β} {action : LowerM α} {next : α → LowerM β} {value : α}
    {middle : Context} (part : action before = .ok value middle) (left : ¬ middle.Live) :
    thenLive dead action next before = .ok dead middle := by
  have asked : isLive middle = .ok false middle :=
    congrArg (EStateM.Result.ok · middle) (Bool.not_eq_true _ ▸ left)
  unfold thenLive
  rw [run_bind part, run_bind asked]
  rfl

/-- Where there is a cursor, instructions go there. -/
theorem run_insertionPoint {builder : Builder} {cursor : Cursor}
    (positioned : builder.cursor = some cursor) :
    Build.insertionPoint builder = .ok cursor builder := by
  have asked : (get : BuildM Builder) builder = .ok builder builder := rfl
  unfold Build.insertionPoint
  rw [run_bind asked, positioned]
  rfl

/-- A construct that control reaches is looked at. -/
theorem run_opened {dead : α} {next : Node → LowerM α} {node : Node} (live : before.Live)
    (stored : walk.program.arena.get? expr = some node) :
    (do
      if !(← isLive) then
        return dead
      next (← walk.node expr)) before = next node before := by
  rw [run_bind (isLive_of_live live), node_of_found stored]
  rfl

theorem lowerNode_structLit {inits : List FieldInit} (live : before.Live)
    (stored : walk.program.arena.get? expr = some ⟨.structLit inits, span, ty⟩) :
    lowerNode walk expr before = lowerStructLit walk inits ty span before := by
  unfold lowerNode
  exact run_opened live stored

theorem lowerNode_binary {op : BinaryOp} {left right : ExprId} (live : before.Live)
    (stored : walk.program.arena.get? expr = some ⟨.binary op left right, span, ty⟩) :
    lowerNode walk expr before = lowerBinary walk op left right span before := by
  unfold lowerNode
  exact run_opened live stored

theorem lowerNode_cast {operand : ExprId} (live : before.Live)
    (stored : walk.program.arena.get? expr = some ⟨.cast operand, span, ty⟩) :
    lowerNode walk expr before = lowerCast walk operand ty span before := by
  unfold lowerNode
  exact run_opened live stored

theorem lowerNode_loop {body : ExprId} (live : before.Live)
    (stored : walk.program.arena.get? expr = some ⟨.loop body, span, ty⟩) :
    lowerNode walk expr before = lowerLoop walk body ty before := by
  unfold lowerNode
  exact run_opened live stored

theorem lowerNode_returnWith {value : Option ExprId} (live : before.Live)
    (stored : walk.program.arena.get? expr = some ⟨.returnWith value, span, ty⟩) :
    lowerNode walk expr before = lowerReturn walk value span before := by
  unfold lowerNode
  exact run_opened live stored

/-- In dead code nothing is lowered. -/
theorem lowerNode_dead (dead : ¬ before.Live) (walk : Walk) (expr : ExprId) :
    lowerNode walk expr before = .ok .unreachable before := by
  have asked : isLive before = .ok false before :=
    congrArg (EStateM.Result.ok · before) (Bool.not_eq_true _ ▸ dead)
  unfold lowerNode
  rw [run_bind asked]
  rfl

theorem lowerExpr_dead (dead : ¬ before.Live) (source : Source) (taken : List Name)
    (expr : ExprId) : lowerExpr source taken expr before = .ok .unreachable before := by
  obtain ⟨fuel, depth⟩ : ∃ fuel, source.exprDepth = fuel + 1 :=
    Nat.exists_eq_succ_of_ne_zero (Nat.succ_ne_zero _)
  rw [lowerExpr, depth, lowerWithin]
  exact lowerNode_dead dead _ expr

end TreeLowering.Lowering
