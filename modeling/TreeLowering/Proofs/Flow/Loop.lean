/-
This file proves that loops are lowered soundly. The block a loop starts over from was made before
its body, so the registers it was given are those that were set before the loop, and they are still
set wherever the body jumps back or out.
-/

import TreeLowering.Proofs.Flow.Branch

namespace TreeLowering.Lowering

open TreeLowering.Ir TreeLowering.Tree Moment

section Loop

variable {base now : Moment} {env : Env} {context : Context} {walk : Walk}

/-- The body of a loop is lowered in the block that waits for it, with the edges of the loop to jump
to. -/
theorem Working.afterLoopBody {β : Type} {extra : BlockId → Prop} {func : FuncId} {block : BlockId}
    {targets : LoopTargets} {known : Register → Prop} {body : ExprId} {next : Unit → LowerM β}
    {post : β → Context → Prop} (working : Working base now env context extra) (sound : walk.Sound)
    (current : base.builder.current = some func) (dead : now.here? = none)
    (ready : now.Ready block base.Known) (waits : extra block) (new : ¬ base.Has block)
    (leave : now.Ready targets.breakTo base.Known) (again : now.Ready targets.continueTo known)
    (covered : ∀ reg, known reg → base.Known reg)
    (rest : ∀ later after, later.here? = none → later.Ready targets.breakTo base.Known →
      Working base later env after (fun other => extra other ∧ other ≠ block) →
      Ensures (next ()) after post) :
    Ensures (lowerLoopBody walk func block targets body >>= next) context post := by
  unfold lowerLoopBody
  rw [bind_assoc]
  refine working.enter current dead ready waits new fun second moved live₂ known₂ working₂ => ?_
  have leave₂ := leave.mono moved.grows
  have again₂ := again.mono moved.grows
  have standing : Standing second second env { context with builder := second.builder } :=
    working₂.fresh live₂ known₂
  have inside : Standing second second (env.pushLoop targets)
      { context with builder := second.builder, env := context.env.pushLoop targets } :=
    ⟨rfl, by rw [← working₂.binding], standing.start,
      standing.bound.pushLoop (leave₂.target known₂)
        (again₂.target fun reg set => known₂ reg (covered reg set)),
      standing.valid, live₂, .refl second⟩
  rw [bind_assoc, ensures_bind, ensures_inLoop]
  refine (sound.expr (inside.binding ▸ inside) body).mono ?_
  rintro _ after ⟨third, same, valid, since, kept, _⟩
  have working₃ : Working base third env { after with env := after.env.popLoop }
      fun other => extra other ∧ other ≠ block :=
    ⟨same.symm, by rw [kept, Env.popLoop_pushLoop]; exact working₂.binding, working₂.start,
      working₂.bound, valid, working₂.grows.trans since.toGrows, fun other => by
        rw [since.waiting, working₂.waiting]⟩
  simp only [bind_assoc]
  have leave₃ := leave₂.mono since.toGrows
  refine working₃.afterLive (fun live => ?_) fun dead => ?_
  · rw [if_pos rfl]
    refine working₃.afterJump live (again₂.mono since.toGrows)
      (fun reg set => since.here live reg (known₂ reg (covered reg set)))
      fun last dead kept working => ?_
    exact rest last _ dead (kept _ _ leave₃) working
  · rw [if_neg Bool.false_ne_true]
    exact rest third _ dead leave₃ working₃

theorem Standing.lowerWhile (standing : Standing now now env context) (sound : walk.Sound)
    (test body : ExprId) (span : Span) :
    Ensures (lowerWhile walk test body span) context (Yields now env (Produced now)) := by
  unfold Lowering.lowerWhile
  obtain ⟨func, current, _⟩ := standing.valid.current
  refine ensures_current standing.building current ?_
  refine standing.working.afterBlock now.Known (fun reg => standing.valid.present_of_known)
    fun testBlock second opened working₂ => ?_
  refine working₂.afterJump (live_iff.2 (opened.here ▸ live_iff.1 standing.live)) opened.ready
    (fun reg known => (opened.knownHere reg).2 known) fun third dead₃ kept working₃ => ?_
  have ready₃ := kept _ _ opened.ready
  refine working₃.enter current dead₃ ready₃ (Or.inr rfl) opened.new
    fun fourth moved live₄ known₄ working₄ => ?_
  have standing₄ := working₄.standing (by tauto) live₄ known₄
  refine standing₄.withValue sound fun test fork after standing₅ since₅ produced => ?_
  rw [ensures_bind]
  refine ensures_expectBool fun scalar => ?_
  have current₅ : fork.builder.current = some func := standing₅.since.current.trans current
  refine Ensures.mono (?_ : Ensures _ _ (Yields fork env (Produced fork))) fun value after yields =>
    yields.rebase standing₅.since standing₅.live fun next _ _ result =>
      result.rebase standing₅.since.toGrows
  refine standing₅.renew.afterFork
    (fun _ _ _ operand => by rw [List.mem_singleton.1 operand]; exact ⟨produced.reads, scalar⟩)
    (fun _ _ _ successor => List.mem_pair.1 successor)
    fun bodyBlock exit sixth forked working₆ => ?_
  have again := ((ready₃.mono moved.grows).mono since₅.toGrows).mono working₆.grows
  refine working₆.afterLoopBody sound current₅ forked.dead forked.readyFirst (Or.inl rfl)
    forked.newFirst forked.readySecond again (standing₅.since.here standing₅.live)
    fun seventh after dead₇ leave working₇ => ?_
  refine working₇.enter current₅ dead₇ leave ⟨Or.inr rfl, forked.differs.symm⟩ forked.newSecond
    fun last _ live known working₈ => ?_
  exact (working₈.standing (by tauto) live known).constant (fun _ _ => trivial) rfl

theorem Standing.lowerLoop (standing : Standing now now env context) (sound : walk.Sound)
    (body : ExprId) (ty : TypeId) :
    Ensures (lowerLoop walk body ty) context (Yields now env (Produced now)) := by
  unfold Lowering.lowerLoop
  obtain ⟨func, current, _⟩ := standing.valid.current
  refine ensures_current standing.building current ?_
  refine standing.afterFork (fun _ _ _ operand => by cases operand)
    (fun _ _ _ successor => Or.inl (List.mem_singleton.1 successor))
    fun bodyBlock exit second forked working₂ => ?_
  refine working₂.afterLoopBody sound current forked.dead forked.readyFirst (Or.inl rfl)
    forked.newFirst forked.readySecond forked.readyFirst (fun _ => id)
    fun third after dead₃ leave working₃ => ?_
  refine working₃.enter current dead₃ leave ⟨Or.inr rfl, forked.differs.symm⟩ forked.newSecond
    fun last _ live known working₄ => ?_
  refine (working₄.standing (by tauto) live known).constant (fun _ _ => ?_) ?_
  · split_ifs <;> trivial
  · split_ifs <;> rfl

end Loop

end TreeLowering.Lowering
