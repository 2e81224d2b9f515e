/-
This file proves that loops are lowered faithfully. A loop starts over in a block that was there before
its body, so one round of the evaluation is one way of the run from that block back to it; a whole
loop is followed by induction on its rounds. A jump in the body leads to an edge of the loop.
-/

import TreeLowering.Proofs.Meaning.Conditional

namespace TreeLowering.Lowering

open TreeLowering.Ir TreeLowering.Tree Builder

/-! ### Sites in a loop -/

theorem Env.scopes_pushLoop (env : Env) (targets : LoopTargets) :
    (env.pushLoop targets).scopes = env.scopes := by
  obtain ⟨scopes, frames⟩ := env
  cases frames <;> rfl

theorem Env.returnType?_pushLoop (env : Env) (targets : LoopTargets) :
    (env.pushLoop targets).returnType? = env.returnType? := by
  obtain ⟨scopes, frames⟩ := env
  cases frames <;> rfl

/-- Where a jump out of a loop or back to its start goes. -/
def LoopTargets.edge (targets : LoopTargets) : LoopJump → BlockId
  | .leave => targets.breakTo
  | .again => targets.continueTo

theorem Env.target?_pushLoop {env : Env} {ret : Ty} (returns : env.returnType? = some ret)
    (targets : LoopTargets) (jump : LoopJump) :
    (env.pushLoop targets).target? jump = some (targets.edge jump) := by
  obtain ⟨scopes, frames⟩ := env
  cases frames with
  | nil => cases returns
  | cons frame frames => cases jump <;> rfl

/-- The site in the body of a loop. -/
def Site.inLoop (site : Site) (targets : LoopTargets) (leaves : Bool) : Site :=
  { site with env := site.env.pushLoop targets, leaves }

theorem Bound.inLoop {body : Function} {site : Site} {targets : LoopTargets} (bound : Bound body site)
    (leaves : Bool) (inner : ∀ jump, targets.edge jump ≠ Function.entryId) :
    Bound body (site.inLoop targets leaves) := by
  refine ⟨?_, ?_, (Env.returnType?_pushLoop ..).trans bound.returns, fun jump id found => ?_⟩
  · rw [Site.inLoop, Env.scopes_pushLoop]
    exact bound.entries
  · rw [Site.inLoop, Env.scopes_pushLoop]
    exact bound.distinct
  · rw [Site.inLoop, Env.target?_pushLoop bound.returns] at found
    cases found
    exact inner jump

theorem Run.holds_inLoop {run : Run} {site : Site} {targets : LoopTargets} {leaves : Bool}
    {locals : Locals} {state : State} :
    run.Holds (site.inLoop targets leaves) locals state ↔ run.Holds site locals state := by
  have same : (site.inLoop targets leaves).env.scopes = site.env.scopes := Env.scopes_pushLoop ..
  exact ⟨fun holds => ⟨holds.homes, same ▸ holds.cells, holds.typed⟩,
    fun holds => ⟨holds.homes, same.symm ▸ holds.cells, holds.typed⟩⟩

/-! ### Rounds -/

namespace Run

variable {run : Run} {site : Site} {base now second third fourth fifth sixth seventh later : Builder}
  {id block : BlockId} {value value' : Value} {prim prim' carried : Prim} {locals locals' : Locals}
  {outcome : Outcome} {state before : State} {point : Point} {targets : LoopTargets} {leaves : Bool}

/-- The body of a loop is followed by the next round, unless it leaves the loop. -/
theorem ends_again {body loop : Evaluation} {ret : Ty}
    (part : ∀ outcome between, body locals = some (outcome, between) →
      run.Ends (site.inLoop targets leaves) now point before second value prim
        (run.Holds (site.inLoop targets leaves)) (run.Holds (site.inLoop targets leaves)) outcome
        between)
    (returns : site.env.returnType? = some ret) (passes : Passes second third targets.continueTo)
    (grown : third.body.Extends run.function) (inner : targets.continueTo ≠ Function.entryId)
    (evaluated : body.andAgain loop locals = some (outcome, locals'))
    (again : ∀ between previous state, run.Holds site between state →
      loop between = some (outcome, locals') → run.Ends site now
        (run.start targets.continueTo previous state) state later value' prim' (run.Holds site)
        (run.Holds site) outcome locals')
    (leave : ∀ between previous state, leaves = true → run.Holds site between state →
      run.Ends site now (run.start targets.breakTo previous state) state later value' prim'
        (run.Holds site) (run.Holds site) (.value .unit) between) :
    run.Ends site now point before later value' prim' (run.Holds site) (run.Holds site) outcome
      locals' := by
  have scopes : (site.inLoop targets leaves).env.scopes = site.env.scopes := Env.scopes_pushLoop ..
  have edge := Env.target?_pushLoop returns targets
  unfold Evaluation.andAgain at evaluated
  cases ended : body locals with
  | none =>
    rw [ended] at evaluated
    cases evaluated
  | some result =>
    obtain ⟨result, between⟩ := result
    rw [ended] at evaluated
    have ends := part result between ended
    cases result with
    | value scalar =>
      obtain ⟨_, _, id, here, previous, state, reaches, kept, _, holds⟩ := ends
      exact (again between (some id) state (holds_inLoop.1 holds) evaluated).after (.refl site) (.refl _)
        (fun _ _ member => member) (reaches.trans (reaches_jump (passes.exits id here) grown inner))
        (scopes ▸ kept)
    | jump jump =>
      obtain ⟨allowed, comes⟩ := ends
      obtain ⟨previous, state, reaches, kept, holds⟩ := comes _ (edge jump)
      cases jump with
      | again =>
        exact (again between previous state (holds_inLoop.1 holds) evaluated).after (.refl site)
          (.refl _) (fun _ _ member => member) reaches (scopes ▸ kept)
      | leave =>
        cases evaluated
        exact (leave _ previous state (allowed rfl) (holds_inLoop.1 holds)).after (.refl site)
          (.refl _) (fun _ _ member => member) reaches (scopes ▸ kept)
    | result scalar =>
      cases evaluated
      exact ends

/-- A construct that first jumps to a block of its own. -/
theorem Simulates.inBlock {evaluation : Evaluation}
    (simulates : run.Simulates site third later (fun _ => True) value prim evaluation)
    (here : now.here? = some id) (exits : Exits now second id (.jump block))
    (enters : Enters now second third block) (grown : second.body.Extends run.function)
    (inner : block ≠ Function.entryId) :
    run.Simulates site now later (fun _ => True) value prim evaluation := by
  intro locals outcome locals' evaluated id' previous state here' holds _
  cases here.symm.trans here'
  exact ((simulates.entered enters evaluated holds).rebase enters.leads.grown).reached
    (reaches_jump exits grown inner)

/-- What a loop does round after round, from the block in which every round starts. -/
def Repeats (run : Run) (site : Site) (now later : Builder) (block : BlockId) (value : Value)
    (prim : Prim) (evaluation : Evaluation) : Prop :=
  ∀ locals outcome locals' previous state, evaluation locals = some (outcome, locals') →
    run.Holds site locals state → run.Ends site now (run.start block previous state) state later value
      prim (run.Holds site) (run.Holds site) outcome locals'

theorem Repeats.simulates {evaluation : Evaluation} (enters : Enters base second now block)
    (repeats : run.Repeats site now later block value prim evaluation) :
    run.Simulates site now later (fun _ => True) value prim evaluation := by
  intro locals outcome locals' evaluated id previous state here holds _
  cases enters.here.symm.trans here
  rw [← start_of_enters enters]
  exact repeats _ _ _ previous state evaluated holds

section Rounds

variable {program : Program} {expr test body : ExprId} {span : Span} {ty : TypeId} {ret : Ty}
  {start middle after last : Builder} {bodyBlock exit testBlock : BlockId} {operand : Value}

/-- All rounds of a loop with a condition. -/
theorem repeats_while
    (found : program.arena.get? expr = some ⟨.whileLoop test body, span, ty⟩)
    (returns : site.env.returnType? = some ret) (enters : Enters base second now testBlock)
    (leads : Leads now third) (here : third.here? = some id)
    (tests : ∀ fuel, run.Simulates site now third (fun _ => True) operand carried
      (program.evaluate fuel test))
    (forks : Forks third fourth id (.branch operand bodyBlock exit) bodyBlock exit)
    (enters' : Enters third fourth start bodyBlock) (leads' : Leads start middle)
    (rounds : ∀ fuel, run.Simulates (site.inLoop ⟨exit, testBlock⟩ true) start middle (fun _ => True)
      value prim' (program.evaluate fuel body))
    (passes : Passes middle after testBlock) (exits : Enters third after last exit)
    (inner : testBlock ≠ Function.entryId) (grown : last.body.Extends run.function)
    (unit : carried ≠ .never → prim = .unit) (fuel : Nat) :
    run.Repeats site now last testBlock .unit prim (program.evaluate fuel expr) := by
  have grown₆ : after.body.Extends run.function := exits.body ▸ grown
  have grown₅ := passes.leads.grown.trans grown₆
  have grown₄ : fourth.body.Extends run.function := enters'.body ▸ leads'.grown.trans grown₅
  induction fuel with
  | zero =>
    intro locals outcome locals' previous state evaluated
    cases evaluated
  | succ fuel inductionHypothesis =>
    intro locals outcome locals' previous state evaluated holds
    rw [Program.evaluate, found] at evaluated
    refine Ends.andThen (fun outcome between evaluated => (tests fuel).entered enters evaluated holds)
      evaluated fun truth between id' previous₃ state₃ _ inhabited here₃ shows holds₃ chooses => ?_
    cases here.symm.trans here₃
    obtain rfl := unit inhabited
    refine ends_choose forks grown₄ shows chooses (fun decided => ?_) fun decided => ?_
    · exact ends_again (fun outcome between evaluated => ((rounds fuel).entered enters' evaluated
        (holds_inLoop.2 holds₃)).rebase (leads.grown.trans enters'.leads.grown)) returns passes grown₆
        inner decided
        (fun between previous state holds evaluated =>
          inductionHypothesis _ _ _ previous state evaluated holds)
        fun between previous state _ holds => (ends_unit exits holds).rebase leads.grown
    · obtain ⟨rfl, rfl⟩ := Evaluation.ends_eq_some decided
      exact (ends_unit exits holds₃).rebase leads.grown

/-- All rounds of a loop without a condition. -/
theorem repeats_loop (found : program.arena.get? expr = some ⟨.loop body, span, ty⟩)
    (returns : site.env.returnType? = some ret) (enters : Enters now second start bodyBlock)
    (rounds : ∀ fuel, run.Simulates (site.inLoop ⟨exit, bodyBlock⟩ leaves) start middle (fun _ => True)
      value' prim' (program.evaluate fuel body))
    (passes : Passes middle after bodyBlock) (exits : Enters now after last exit)
    (inner : bodyBlock ≠ Function.entryId) (grown : last.body.Extends run.function)
    (unit : leaves = true → value = .unit ∧ prim = .unit) (fuel : Nat) :
    run.Repeats site now last bodyBlock value prim (program.evaluate fuel expr) := by
  induction fuel with
  | zero =>
    intro locals outcome locals' previous state evaluated
    cases evaluated
  | succ fuel inductionHypothesis =>
    intro locals outcome locals' previous state evaluated holds
    rw [Program.evaluate, found] at evaluated
    refine ends_again (fun outcome between evaluated => ((rounds fuel).entered enters evaluated
      (holds_inLoop.2 holds)).rebase enters.leads.grown) returns passes (exits.body ▸ grown) inner
      evaluated (fun between previous state holds evaluated =>
        inductionHypothesis _ _ _ previous state evaluated holds)
      fun between previous state allowed holds => ?_
    obtain ⟨rfl, rfl⟩ := unit allowed
    exact ends_unit exits holds

end Rounds

end Run

section Loop

variable {site : Site} {base : Builder} {context : Context} {walk : Walk} {prim : Prim} {func : FuncId}
  {depth : Nat} {expr test body : ExprId} {span : Span} {ty : TypeId}

/-! ### Loops -/

/-- The body of a loop is lowered in the block that was prepared for it, and jumps back. -/
theorem Gives.loopBody {β : Type} {block : BlockId} {targets : LoopTargets} {leaves : Bool}
    {next : Unit → LowerM β} {post : β → Context → Prop}
    (gives : Gives walk.toSource site base context) (faithful : walk.Faithful)
    (current : base.current = some func) (bound : Bound base.body site)
    (prepared : Prepared base context.builder block)
    (inner : ∀ jump, targets.edge jump ≠ Function.entryId)
    (typed : walk.program.wellTyped site.ret depth leaves site.prims body = true)
    (carries : walk.program.typeOf? body = some prim)
    (rest : ∀ value start middle after, Enters base context.builder start block →
      Means walk.toSource (site.inLoop targets leaves) start
        (fun fuel => walk.program.evaluate fuel body) prim value middle →
      Passes middle.builder after.builder targets.continueTo → Gives walk.toSource site base after →
      Ensures (next ()) after post) :
    Ensures (lowerLoopBody walk func block targets body >>= next) context post := by
  unfold lowerLoopBody
  rw [bind_assoc]
  refine gives.enter current prepared fun start enters gives₂ => ?_
  have bound₂ := (bound.mono enters.leads.grown).inLoop leaves inner
  rw [bind_assoc, ensures_bind, ensures_inLoop]
  have stands : Stands walk.toSource (site.inLoop targets leaves)
      { context with builder := start, env := context.env.pushLoop targets } :=
    ⟨enters.fit, ⟨block, enters.here⟩, by rw [gives.env]; rfl, bound₂, gives₂.memo⟩
  refine (faithful.expr stands typed carries).mono fun value middle means => ?_
  have gives₃ : Gives walk.toSource site base { middle with env := middle.env.popLoop } := by
    refine ⟨means.fit, enters.leads.trans means.leads, ?_, means.memo⟩
    show middle.env.popLoop = site.env
    rw [means.env]
    exact Env.popLoop_pushLoop ..
  have further : ∀ live, (if live = true then build (Build.jump targets.continueTo) else pure ()) >>=
      next = if live = true then build (Build.jump targets.continueTo) >>= next else next () := by
    intro live
    cases live <;> rfl
  simp only [bind_assoc, further]
  exact gives₃.pass fun after passes gives₄ => rest value start middle _ enters means passes gives₄

theorem Stands.lowerWhile (stands : Stands walk.toSource site context) (faithful : walk.Faithful)
    (found : walk.program.arena.get? expr = some ⟨.whileLoop test body, span, ty⟩)
    (checked : walk.program.checkNode (walk.program.wellTyped site.ret depth) site.leaves site.ret
      site.prims ⟨.whileLoop test body, span, ty⟩ prim = true) :
    Ensures (lowerWhile walk test body span) context (Means walk.toSource site context.builder
      (fun fuel => walk.program.evaluate (fuel + 1) expr) prim) := by
  simp only [Program.checkNode, Program.checkTest, Bool.and_eq_true, Bool.or_eq_true,
    beq_iff_eq] at checked
  obtain ⟨⟨⟨typed, _⟩, typedBody⟩, unit⟩ := checked
  obtain ⟨_, _, carried, _, _, carriesTest, _⟩ := Program.wellTyped_cases typed
  obtain ⟨_, _, bodyPrim, _, _, carriesBody, _⟩ := Program.wellTyped_cases typedBody
  obtain ⟨id, here⟩ := stands.live
  unfold Lowering.lowerWhile
  refine stands.withFunction fun func current => ?_
  refine stands.gives.withBlock fun testBlock second opens gives₂ => ?_
  refine gives₂.close (opens.here.trans here) fun third closes gives₃ => ?_
  have prepared := (opens.prepared (.refl context.builder)).still closes.leads
  refine gives₃.enter current prepared fun start enters gives₄ => ?_
  have stands₄ := gives₄.stands stands.bound ⟨testBlock, enters.here⟩
  have exits : Exits context.builder third id (.jump testBlock) :=
    ⟨by rw [closes.plain, opens.plain], closes.exit⟩
  refine Ensures.mono (?_ : Ensures _ _ (Means walk.toSource site start
    (fun fuel => walk.program.evaluate (fuel + 1) expr) prim)) fun value after means => ?_
  · refine stands₄.withValue faithful typed carriesTest (fun value fourth means nowhere => ?_)
      fun operand fourth means stands₅ => ?_
    · refine ⟨means.toGives, .of_constant rfl rfl, fun run grown fuel => ?_⟩
      rw [Program.evaluate, found]
      exact (means.runs run grown fuel).dead nowhere
    obtain ⟨id₄, here₄⟩ := stands₅.live
    have current₄ : fourth.builder.current = some func :=
      means.leads.current.trans (gives₄.leads.current.trans current)
    rw [ensures_bind]
    refine ensures_expectBool fun _ => ?_
    refine stands₅.fork here₄ fun bodyBlock exit fifth forks gives₅ => ?_
    have inner : ∀ jump, (LoopTargets.mk exit testBlock).edge jump ≠ Function.entryId := by
      intro jump
      cases jump with
      | leave => exact forks.second.inner
      | again => exact prepared.inner
    refine gives₅.loopBody faithful current₄ stands₅.bound forks.first inner typedBody carriesBody
      fun _ sixth seventh eighth enters' means' passes gives₆ => ?_
    have exit₆ := ((forks.second.beside enters'.toMoves forks.differs.symm).still means'.leads).still
      passes.leads
    refine gives₆.enter current₄ exit₆ fun last exits gives₇ => ?_
    refine ⟨means.toGives.trans gives₇, .of_constant rfl rfl, fun run grown fuel => ?_⟩
    have grown₆ : eighth.builder.body.Extends run.function := exits.body ▸ grown
    have grown₅ := passes.leads.grown.trans grown₆
    have grown₄ : fourth.builder.body.Extends run.function :=
      forks.leads.grown.trans (enters'.body ▸ means'.leads.grown.trans grown₅)
    exact (Run.repeats_while found stands.bound.returns enters means.leads here₄ (means.runs run grown₄)
      forks enters' means'.leads (means'.runs run grown₅) passes exits prepared.inner grown
      (fun inhabited => unit.resolve_left (Program.not_diverges carriesTest inhabited))
      (fuel + 1)).simulates enters
  · exact ⟨gives₄.trans means.toGives, means.known, fun run grown fuel =>
      (means.runs run grown fuel).inBlock here exits enters
        (enters.body ▸ means.leads.grown.trans grown) prepared.inner⟩

theorem Stands.lowerLoop (stands : Stands walk.toSource site context) (faithful : walk.Faithful)
    (found : walk.program.arena.get? expr = some ⟨.loop body, span, ty⟩)
    (checked : walk.program.checkNode (walk.program.wellTyped site.ret depth) site.leaves site.ret
      site.prims ⟨.loop body, span, ty⟩ prim = true) :
    Ensures (lowerLoop walk body ty) context (Means walk.toSource site context.builder
      (fun fuel => walk.program.evaluate (fuel + 1) expr) prim) := by
  simp only [Program.checkNode, Bool.and_eq_true, Bool.or_eq_true, beq_iff_eq] at checked
  obtain ⟨typedBody, unit⟩ := checked
  obtain ⟨_, _, bodyPrim, _, _, carriesBody, _⟩ := Program.wellTyped_cases typedBody
  obtain ⟨id, here⟩ := stands.live
  unfold Lowering.lowerLoop
  refine stands.withFunction fun func current => ?_
  refine stands.fork here fun bodyBlock exit second forks gives₂ => ?_
  have inner : ∀ jump, (LoopTargets.mk exit bodyBlock).edge jump ≠ Function.entryId := by
    intro jump
    cases jump with
    | leave => exact forks.second.inner
    | again => exact forks.first.inner
  refine gives₂.loopBody faithful current stands.bound forks.first inner typedBody carriesBody
    fun _ start middle after enters means passes gives₃ => ?_
  have exit₃ := ((forks.second.beside enters.toMoves forks.differs.symm).still means.leads).still
    passes.leads
  refine gives₃.enter current exit₃ fun last exits gives₄ => ?_
  refine ⟨gives₄, ?_, fun run grown fuel => ?_⟩
  · split_ifs
    · exact .of_constant rfl rfl
    · exact .of_constant rfl rfl
  have grown₃ : after.builder.body.Extends run.function := exits.body ▸ grown
  have grown₂ := passes.leads.grown.trans grown₃
  have grown₁ : second.body.Extends run.function := enters.body ▸ means.leads.grown.trans grown₂
  intro locals outcome locals' evaluated id' previous state here' holds _
  cases here.symm.trans here'
  have repeats : run.Repeats site context.builder last bodyBlock
      (if ty = .never then .unreachable else .unit) prim (walk.program.evaluate (fuel + 1) expr) := by
    refine Run.repeats_loop found stands.bound.returns enters (means.runs run grown₂) passes
      exits forks.first.inner grown (fun allowed => ?_) (fuel + 1)
    rw [bne_iff_ne] at allowed
    exact ⟨if_neg allowed, unit.resolve_left allowed⟩
  exact (repeats _ _ _ (some id) state evaluated holds).reached
    (Run.reaches_jump forks.toExits grown₁ forks.first.inner)

end Loop

end TreeLowering.Lowering
