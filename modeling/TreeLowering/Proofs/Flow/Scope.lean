/-
This file proves that blocks and `let` are lowered soundly. A statement may bind a name in the
innermost scope, so the environment a block works with changes from statement to statement; the
scopes around the block stay as they are.
-/

import TreeLowering.Proofs.Flow.Straight

namespace TreeLowering.Lowering

open TreeLowering.Ir TreeLowering.Tree Moment

/-- What a part of a block may leave behind when `outer` is the environment around the block. -/
def YieldsInside {α : Type} (base : Moment) (outer : Env) (good : Moment → α → Prop) (result : α)
    (after : Context) : Prop :=
  ∃ now : Moment, now.builder = after.builder ∧ now.Valid ∧ Since base now ∧
    after.env.leaveScope = outer ∧ (now.Live → now.EnvOk after.env ∧ good now result)

section Scope

variable {base now : Moment} {env : Env} {context : Context} {walk : Walk}

/-- What leaves the environment as it is leaves it usable. -/
theorem Yields.inside {α : Type} {good good' : Moment → α → Prop} {result : α} {after : Context}
    (standing : Standing now now context.env context)
    (yields : Yields now context.env good result after)
    (weaker : ∀ next, good next result → good' next result) :
    YieldsInside now context.env.leaveScope good' result after := by
  obtain ⟨next, same, valid, since, kept, holds⟩ := yields
  refine ⟨next, same, valid, since, by rw [kept], fun live => ⟨?_, weaker next (holds live)⟩⟩
  rw [kept]
  exact standing.bound.mono since.toGrows (since.here live)

/-- A name is bound to something usable. -/
theorem Standing.afterBind (standing : Standing base now context.env context) (name : Name)
    {binding : Binding} (usable : now.BindingOk binding) :
    Ensures (modifyEnv fun env => env.bind name binding) context
      (YieldsInside base context.env.leaveScope fun _ _ => True) := by
  rw [ensures_modifyEnv]
  exact ⟨now, standing.building.symm, standing.valid, standing.since, Env.leaveScope_bind ..,
    fun _ => ⟨standing.usable.bind usable, trivial⟩⟩

theorem Standing.bindValue (standing : Standing base now context.env context) (name : Name)
    {value : Value} (produced : Produced base now value) :
    Ensures (bindValue name value) context
      (YieldsInside base context.env.leaveScope fun _ _ => True) := by
  unfold Lowering.bindValue
  rw [ensures_bind, ensures_build, standing.building]
  refine Ensures.mono (pinned standing.since standing.valid standing.live produced) ?_
  rintro _ _ ⟨next, rfl, valid, since, live, settled⟩
  exact (standing.advance valid live since).afterBind name settled

theorem ensures_slotType (walk : Walk) (ty : TypeId) (init : Option ExprId)
    {post : TypeId → Context → Prop} (rest : ∀ ty, post ty context) :
    Ensures (slotType walk ty init) context post := by
  unfold slotType
  split
  · split
    · exact ensures_typeOf walk _ rest
    · exact rest ty
  · exact rest ty

theorem Standing.bindSlot (standing : Standing base now context.env context) (name : Name)
    (mutable : Bool) (ty : TypeId) (init : Option ExprId) {value : Option Value}
    (produced : ∀ found ∈ value, Produced base now found) :
    Ensures (bindSlot walk name mutable ty init value) context
      (YieldsInside base context.env.leaveScope fun _ _ => True) := by
  unfold Lowering.bindSlot
  rw [ensures_bind]
  refine ensures_slotType walk ty init fun ty => ?_
  refine standing.afterType fun mapped second after standing₂ since => ?_
  have same := standing₂.binding
  refine standing₂.afterSlot fun address third standing₃ since' slot => ?_
  cases value with
  | none =>
    rw [← same] at standing₃ ⊢
    exact standing₃.afterBind name slot
  | some value =>
    have value₃ := ((produced value rfl).later since standing₂.live).later since' standing₃.live
    refine standing₃.afterStore slot value₃ fun fourth standing₄ kept => ?_
    rw [← same] at standing₄ ⊢
    exact standing₄.afterBind name (kept address slot)

theorem Standing.lowerLet (standing : Standing now now context.env context) (sound : walk.Sound)
    (name : Name) (mutable : Bool) (ty : TypeId) (init : Option ExprId) :
    Ensures (lowerLet walk name mutable ty init) context
      (YieldsInside now context.env.leaveScope fun _ _ => True) := by
  unfold Lowering.lowerLet
  cases init with
  | none => exact standing.bindSlot name mutable ty none fun _ found => by cases found
  | some initExpr =>
    rw [ensures_thenLive]
    refine (sound.expr standing initExpr).mono ?_
    rintro value after ⟨second, same, valid, since, kept, holds⟩
    by_cases live : after.builder.cursor.isSome = true
    · rw [if_pos live]
      rw [← same] at live
      have standing₂ : Standing now second after.env after :=
        ⟨same.symm, rfl, standing.start, kept ▸ standing.bound, valid, live, since⟩
      rw [← kept]
      split_ifs
      · exact standing₂.bindSlot name mutable ty (some initExpr) fun found member => by
          cases member
          exact holds live
      · exact standing₂.bindValue name (holds live)
    · rw [if_neg live]
      refine ⟨second, same, valid, since, by rw [kept], fun alive => absurd ?_ live⟩
      rw [← same]
      exact alive

theorem Standing.lowerStmt (standing : Standing now now context.env context) (sound : walk.Sound)
    (stmt : Stmt) :
    Ensures (lowerStmt walk stmt) context
      (YieldsInside now context.env.leaveScope fun _ _ => True) := by
  have plain : ∀ part, Ensures (walk.expr part) context fun _ after =>
      YieldsInside now context.env.leaveScope (fun _ _ => True) () after := fun part =>
    (sound.expr standing part).mono fun value after yields => by
      obtain ⟨next, same, valid, since, kept, holds⟩ :
          YieldsInside now context.env.leaveScope (fun _ _ => True) value after :=
        yields.inside standing fun _ _ => trivial
      exact ⟨next, same, valid, since, kept, holds⟩
  have nothing : YieldsInside now context.env.leaveScope (fun _ (_ : Unit) => True) () context :=
    ⟨now, standing.building.symm, standing.valid, .refl now, rfl, fun _ => ⟨standing.bound, trivial⟩⟩
  unfold Lowering.lowerStmt
  split
  · exact standing.lowerLet sound _ _ _ _
  · rw [ensures_discard]
    exact plain _
  · exact nothing
  · rfl
  · rw [ensures_discard]
    exact plain _
  · rw [ensures_discard]
    exact plain _
  · rfl

/-- Statements follow one another as long as control gets there. -/
theorem Standing.lowerStmts (standing : Standing now now context.env context) (sound : walk.Sound)
    (stmts : List Stmt) (tail : Option ExprId) :
    Ensures (lowerStmts walk stmts tail) context
      (YieldsInside now context.env.leaveScope (Produced now)) := by
  induction stmts generalizing now context with
  | nil =>
    cases tail with
    | none =>
      exact ⟨now, standing.building.symm, standing.valid, .refl now, rfl, fun _ =>
        ⟨standing.bound, .of_constant (fun _ _ => trivial) rfl⟩⟩
    | some tail =>
      exact (sound.expr standing tail).mono fun value after yields =>
        yields.inside standing fun _ => id
  | cons stmt rest inductionHypothesis =>
    rw [Lowering.lowerStmts, ensures_thenLive]
    refine (standing.lowerStmt sound stmt).mono ?_
    rintro _ after ⟨second, same, valid, since, kept, holds⟩
    split_ifs with live
    · rw [← same] at live
      obtain ⟨usable, _⟩ := holds live
      refine (@inductionHypothesis second after
        ⟨same.symm, rfl, valid, usable, valid, live, .refl second⟩).mono ?_
      rintro value last ⟨third, same', valid', since', kept', holds'⟩
      exact ⟨third, same', valid', since.trans live since', kept'.trans kept, fun alive =>
        ⟨(holds' alive).1, (holds' alive).2.rebase since.toGrows⟩⟩
    · refine ⟨second, same, valid, since, kept, fun alive => absurd ?_ live⟩
      rw [← same]
      exact alive

theorem Standing.lowerBlock (standing : Standing now now context.env context) (sound : walk.Sound)
    (scope : ScopeId) (stmts : List Stmt) (tail : Option ExprId) :
    Ensures (lowerBlock walk scope stmts tail) context
      (Yields now context.env (Produced now)) := by
  unfold Lowering.lowerBlock
  rw [ensures_inScope]
  have inner : Standing now now (context.enterScope scope).env (context.enterScope scope) :=
    ⟨standing.building, rfl, standing.valid, standing.bound.enterScope, standing.valid,
      standing.live, .refl now⟩
  refine (inner.lowerStmts sound stmts tail).mono ?_
  rintro value after ⟨next, same, valid, since, kept, holds⟩
  exact ⟨next, same, valid, since, kept, fun live => (holds live).2⟩

end Scope

end TreeLowering.Lowering
