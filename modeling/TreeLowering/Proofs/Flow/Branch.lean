/-
This file proves that the constructs which choose between ways are lowered soundly. While such a
construct is lowered, blocks that it has made wait beside those that waited before; `Working` keeps
account of them. Each block is given the registers that are set where the ways part, so what could
be read there can be read wherever they meet again.
-/

import TreeLowering.Proofs.Flow.Block
import TreeLowering.Proofs.Flow.Scope

namespace TreeLowering.Lowering

open TreeLowering.Ir TreeLowering.Tree Moment

/-- A point in the lowering of a construct that began at `base` and has made the waiting blocks in
`extra`. -/
structure Working (base now : Moment) (env : Env) (context : Context) (extra : BlockId → Prop) :
    Prop where
  building : context.builder = now.builder
  binding : context.env = env
  start : base.Valid
  bound : base.EnvOk env
  valid : now.Valid
  grows : Grows base now
  waiting : ∀ id, now.Waiting id ↔ base.Waiting id ∨ extra id

namespace Working

variable {α β : Type} {base now : Moment} {env : Env} {context : Context} {extra : BlockId → Prop}
  {func : FuncId} {id : BlockId} {post : β → Context → Prop}

theorem congr {extra' : BlockId → Prop} (working : Working base now env context extra)
    (same : ∀ id, extra id ↔ extra' id) : Working base now env context extra' :=
  { working with waiting := fun id => (working.waiting id).trans (or_congr_right (same id)) }

/-- When no block of the construct waits any more, it is done. -/
theorem standing (working : Working base now env context extra) (done : ∀ id, ¬ extra id)
    (live : now.Live) (here : ∀ reg, base.Known reg → now.Known reg) :
    Standing base now env context :=
  ⟨working.building, working.binding, working.start, working.bound, working.valid, live,
    working.grows, fun id => (working.waiting id).trans (or_iff_left (done id)), fun _ => here⟩

theorem yields {good : Moment → α → Prop} {result : α}
    (working : Working base now env context extra) (done : ∀ id, ¬ extra id)
    (dead : now.here? = none) : Yields base env good result context :=
  ⟨now, working.building.symm, working.valid, ⟨working.grows, fun id =>
    (working.waiting id).trans (or_iff_left (done id)), fun live => absurd live (dead_of_here dead)⟩,
    working.binding, fun live => absurd live (dead_of_here dead)⟩

theorem open_of_extra (working : Working base now env context extra) (waits : extra id) :
    now.Open id := ((working.waiting id).2 (Or.inr waits)).1

theorem afterBlock {hint : String} {next : BlockId → LowerM β}
    (working : Working base now env context extra) (known : Register → Prop)
    (present : ∀ reg, known reg → now.body.Present reg)
    (rest : ∀ id later, Opened now later id known →
      Working base later env { context with builder := later.builder }
        (fun other => extra other ∨ other = id) →
      Ensures (next id) { context with builder := later.builder } post) :
    Ensures (build (Build.newBlock hint) >>= next) context post := by
  rw [ensures_bind, ensures_build, working.building]
  refine Ensures.mono (blockOpened working.valid hint present) ?_
  rintro id _ ⟨later, rfl, opened⟩
  refine rest id later opened ⟨rfl, working.binding, working.start, working.bound, opened.valid,
    working.grows.trans opened.grows, fun other => ?_⟩
  rw [opened.waiting, working.waiting, or_assoc]

theorem afterClose {terminator : Terminator} {next : Unit → LowerM β}
    (working : Working base now env context extra) (here : now.here? = some id)
    (usable : ∀ value ∈ terminator.operands, Usable base now value)
    (targets : ∀ target ∈ terminator.successors, now.Target target)
    (rest : ∀ later, Closed base now later id terminator →
      Working base later env { context with builder := later.builder } extra →
      Ensures (next ()) { context with builder := later.builder } post) :
    Ensures (build (Build.terminate terminator) >>= next) context post := by
  rw [ensures_bind, ensures_build, working.building]
  refine Ensures.mono (blockClosed working.grows working.valid here usable targets) ?_
  rintro _ _ ⟨later, rfl, closed⟩
  refine rest later closed ⟨rfl, working.binding, working.start, working.bound, closed.valid,
    closed.grows, fun other => ?_⟩
  rw [closed.waiting, working.waiting]

theorem afterMove {next : Unit → LowerM β} (working : Working base now env context extra)
    (current : now.builder.current = some func) (opened : now.Open id) (away : ¬ base.Waiting id)
    (rest : ∀ later, Moved now later id →
      Working base later env { context with builder := later.builder }
        (fun other => (extra other ∨ now.here? = some other) ∧ other ≠ id) →
      Ensures (next ()) { context with builder := later.builder } post) :
    Ensures (build (Build.positionAt func id) >>= next) context post := by
  rw [ensures_bind, ensures_build, working.building]
  refine Ensures.mono (cursorMoved working.valid current opened) ?_
  rintro _ _ ⟨later, rfl, moved⟩
  refine rest later moved ⟨rfl, working.binding, working.start, working.bound, moved.valid,
    working.grows.trans moved.grows, fun other => ?_⟩
  have differs : base.Waiting other → other ≠ id := fun waiting same => away (same ▸ waiting)
  rw [moved.waiting, working.valid.open_iff, working.waiting]
  tauto

theorem later {middle : Moment} {after : Context} (working : Working base middle env context extra)
    (standing : Standing middle now env after) : Working base now env after extra :=
  ⟨standing.building, standing.binding, working.start, working.bound, standing.valid,
    working.grows.trans standing.since.toGrows, fun id =>
      (standing.since.waiting id).trans (working.waiting id)⟩

/-- The environment can be used wherever what was known at the beginning is known. -/
theorem fresh (working : Working base now env context extra) (live : now.Live)
    (covered : ∀ reg, base.Known reg → now.Known reg) : Standing now now env context :=
  ⟨working.building, working.binding, working.valid, working.bound.mono working.grows covered,
    working.valid, live, .refl now⟩

theorem afterExpr {walk : Walk} {part : ExprId} {next : Value → LowerM β}
    (working : Working base now env context extra) (sound : walk.Sound) (live : now.Live)
    (covered : ∀ reg, base.Known reg → now.Known reg)
    (rest : ∀ value later after, Working base later env after extra → Since now later →
      (later.Live → Produced now later value) → Ensures (next value) after post) :
    Ensures (walk.expr part >>= next) context post := by
  have standing := working.fresh live covered
  rw [ensures_bind]
  refine (sound.expr (working.binding ▸ standing) part).mono ?_
  rintro value after ⟨later, same, valid, since, kept, holds⟩
  refine rest value later after ⟨same.symm, kept.trans working.binding, working.start, working.bound,
    valid, working.grows.trans since.toGrows, fun other => ?_⟩ since holds
  rw [since.waiting, working.waiting]

end Working

/-- What a block was given is known once the cursor is there. -/
theorem Moment.Ready.known {now : Moment} {id : BlockId} {known : Register → Prop}
    (ready : now.Ready id known) (here : now.here? = some id) (reg : Register) (set : known reg) :
    now.Known reg :=
  (known_iff here).2 (Or.inl (Or.inl ((ready.avail reg).2 set)))

section Branch

variable {base now : Moment} {env : Env} {context : Context} {walk : Walk}

theorem Standing.working (standing : Standing now now env context) :
    Working now now env context fun _ => False :=
  ⟨standing.building, standing.binding, standing.valid, standing.bound, standing.valid, .refl now,
    fun _ => (or_iff_left not_false).symm⟩

/-! ### Jumps -/

/-- A construct that closes its block is over. -/
theorem Standing.close {α : Type} {good : Moment → α → Prop} {result : α} {terminator : Terminator}
    (standing : Standing base now env context)
    (usable : ∀ value ∈ terminator.operands, Usable base now value)
    (targets : ∀ target ∈ terminator.successors, now.Target target) :
    Ensures (build (Build.terminate terminator) >>= fun _ => pure result) context
      (Yields base env good) := by
  obtain ⟨id, here⟩ := live_iff.1 standing.live
  rw [ensures_bind, ensures_build, standing.building]
  refine Ensures.mono (blockClosed standing.since.toGrows standing.valid here usable targets) ?_
  rintro _ _ ⟨later, rfl, closed⟩
  exact ⟨later, rfl, closed.valid, closed.since standing.since, standing.binding, fun live =>
    absurd live (dead_of_here closed.here)⟩

theorem Standing.lowerReturn (standing : Standing base now env context) (sound : walk.Sound)
    (value : Option ExprId) (span : Span) :
    Ensures (lowerReturn walk value span) context (Yields base env (Produced base)) := by
  unfold Lowering.lowerReturn
  rw [ensures_bind, ensures_get, standing.binding]
  obtain ⟨ret, returns⟩ := Option.isSome_iff_exists.1 standing.bound.frame
  rw [returns]
  cases value with
  | none => exact standing.close (fun _ operand => by cases operand) fun _ target => by cases target
  | some value =>
    refine standing.withValue sound fun found second after standing₂ _ produced => ?_
    have usable := (produced.rebase standing.since.toGrows).usable standing₂.valid
      standing₂.since.toGrows
    refine standing₂.close (fun operand member => ?_) fun _ target => by cases target
    split_ifs at member
    · cases member
    · rw [List.mem_singleton.1 member]
      exact usable

theorem Standing.lowerLoopJump (standing : Standing base now env context) (jump : LoopJump)
    (span : Span) :
    Ensures (lowerLoopJump jump span) context (Yields base env (Produced base)) := by
  unfold Lowering.lowerLoopJump
  rw [ensures_bind, ensures_get, standing.binding]
  split
  · next target found =>
    exact standing.close (fun _ operand => by cases operand)
      (List.forall_mem_singleton.2 (standing.usable.target found))
  · rfl

/-! ### Short circuits -/

theorem ensures_expectBool {value : Value} {span : Span} {post : Unit → Context → Prop}
    (rest : value.ty.isAggregate = false → post () context) :
    Ensures (expectBool value span) context post := by
  unfold expectBool
  split_ifs with isBool
  · refine rest ?_
    rw [Ty.isBool, beq_iff_eq] at isBool
    rw [isBool]
    rfl
  · rfl

theorem ensures_current {β : Type} {func : FuncId} (building : context.builder = now.builder)
    (current : now.builder.current = some func) {next : FuncId → LowerM β}
    {post : β → Context → Prop} (rest : Ensures (next func) context post) :
    Ensures (currentFunction >>= next) context post := by
  unfold currentFunction
  rw [ensures_bind, ensures_build, building, ensures_currentFunction current]
  rw [← building]
  exact rest

/-- Two blocks that were made where the ways part, at `fork`, wait for the cursor. -/
structure Forked (fork now : Moment) (first second : BlockId) : Prop where
  readyFirst : now.Ready first fork.Known
  readySecond : now.Ready second fork.Known
  newFirst : ¬ fork.Has first
  newSecond : ¬ fork.Has second
  differs : first ≠ second
  dead : now.here? = none

/-- The ways part: two blocks are made, and control goes to one of them. -/
theorem Standing.afterFork {β : Type} {hint hint' : String}
    {terminator : BlockId → BlockId → Terminator} {next : BlockId → BlockId → LowerM β}
    {post : β → Context → Prop} (standing : Standing now now env context)
    (usable : ∀ first second, ∀ value ∈ (terminator first second).operands, now.Address value)
    (targets : ∀ first second, ∀ target ∈ (terminator first second).successors,
      target = first ∨ target = second)
    (rest : ∀ first second later, Forked now later first second →
      Working now later env { context with builder := later.builder }
        (fun other => other = first ∨ other = second) →
      Ensures (next first second) { context with builder := later.builder } post) :
    Ensures (do
      let first ← build (Build.newBlock hint)
      let second ← build (Build.newBlock hint')
      build (Build.terminate (terminator first second))
      next first second) context post := by
  obtain ⟨start, here⟩ := live_iff.1 standing.live
  refine standing.working.afterBlock now.Known (fun reg => standing.valid.present_of_known)
    fun first second opened₂ working₂ => ?_
  refine working₂.afterBlock now.Known
    (fun reg known => opened₂.grows.present (standing.valid.present_of_known known))
    fun other third opened₃ working₃ => ?_
  have known₃ : ∀ reg, now.Known reg → third.Known reg := fun reg known =>
    (opened₃.knownHere reg).2 ((opened₂.knownHere reg).2 known)
  have first₃ := opened₂.ready.mono opened₃.grows
  refine working₃.afterClose ((opened₃.here.trans opened₂.here).trans here) (fun value operand => ?_)
    (fun target successor => ?_) fun fourth closed working₄ => ?_
  · exact ((usable first other value operand).mono working₃.grows known₃).usable working₃.valid
      working₃.grows
  · rcases targets first other target successor with rfl | rfl
    · exact first₃.target known₃
    · exact opened₃.ready.target known₃
  · exact rest first other fourth ⟨closed.ready first₃, closed.ready opened₃.ready, opened₂.new,
      fun found => opened₃.new (opened₂.grows.blocks other found),
      fun same => opened₃.new (same ▸ opened₂.ready.found), closed.here⟩
      (working₄.congr fun id => by rw [false_or])

/-- The cursor comes to a block that waits for it. -/
theorem Working.enter {β : Type} {extra : BlockId → Prop} {func : FuncId} {id : BlockId}
    {known : Register → Prop} {next : Unit → LowerM β} {post : β → Context → Prop}
    (working : Working base now env context extra) (current : base.builder.current = some func)
    (dead : now.here? = none) (ready : now.Ready id known) (waits : extra id)
    (new : ¬ base.Has id)
    (rest : ∀ later, Moved now later id → later.Live → (∀ reg, known reg → later.Known reg) →
      Working base later env { context with builder := later.builder }
        (fun other => extra other ∧ other ≠ id) →
      Ensures (next ()) { context with builder := later.builder } post) :
    Ensures (build (Build.positionAt func id) >>= next) context post := by
  refine working.afterMove (working.grows.current.trans current) (working.open_of_extra waits)
    (fun waiting => new waiting.1.1) fun later moved working' => ?_
  refine rest later moved (live_iff.2 ⟨id, moved.here⟩) ((ready.mono moved.grows).known moved.here)
    (working'.congr fun other => ?_)
  rw [dead]
  simp

/-- What comes next may depend on whether control gets there. -/
theorem Working.afterLive {β : Type} {extra : BlockId → Prop} {next : Bool → LowerM β}
    {post : β → Context → Prop} (working : Working base now env context extra)
    (alive : now.Live → Ensures (next true) context post)
    (dead : now.here? = none → Ensures (next false) context post) :
    Ensures (isLive >>= next) context post := by
  rw [ensures_bind, ensures_isLive, working.building]
  cases live : now.builder.cursor.isSome with
  | true => exact alive live
  | false => exact dead (here_of_dead (by rw [Live, live]; exact Bool.false_ne_true))

/-- Control goes on to a block that waits for it. -/
theorem Working.afterJump {β : Type} {extra : BlockId → Prop} {id : BlockId}
    {known : Register → Prop} {next : Unit → LowerM β} {post : β → Context → Prop}
    (working : Working base now env context extra) (live : now.Live) (ready : now.Ready id known)
    (covered : ∀ reg, known reg → now.Known reg)
    (rest : ∀ later, later.here? = none → (∀ other set, now.Ready other set → later.Ready other set) →
      Working base later env { context with builder := later.builder } extra →
      Ensures (next ()) { context with builder := later.builder } post) :
    Ensures (build (Build.jump id) >>= next) context post := by
  obtain ⟨start, here⟩ := live_iff.1 live
  exact working.afterClose here (fun _ operand => by cases operand)
    (List.forall_mem_singleton.2 (ready.target covered)) fun later closed working' =>
      rest later closed.here (fun _ _ => closed.ready) working'

/-- A way that got to its end goes on to where the ways meet. -/
theorem Working.afterWay {β : Type} {extra : BlockId → Prop} {id : BlockId}
    {known : Register → Prop} {next : Unit → LowerM β} {post : β → Context → Prop}
    (working : Working base now env context extra) (ready : now.Ready id known)
    (covered : now.Live → ∀ reg, known reg → now.Known reg)
    (rest : ∀ later after, later.here? = none →
      (∀ other set, now.Ready other set → later.Ready other set) →
      Working base later env after extra → Ensures (next ()) after post) :
    Ensures (isLive >>= fun live =>
      if live = true then build (Build.jump id) >>= next else next ()) context post := by
  refine working.afterLive (fun live => ?_) fun dead => ?_
  · rw [if_pos rfl]
    exact working.afterJump live ready (covered live) fun later dead kept working' =>
      rest later _ dead kept working'
  · rw [if_neg Bool.false_ne_true]
    exact rest now context dead (fun _ _ ready => ready) working

theorem Standing.lowerShortCircuit (standing : Standing base now env context) (sound : walk.Sound)
    (isAnd : Bool) (left right : ExprId) (span : Span) :
    Ensures (lowerShortCircuit walk isAnd left right span) context
      (Yields base env (Produced base)) := by
  refine standing.withValue sound fun left first after standing₁ _ produced => ?_
  rw [ensures_bind]
  refine ensures_expectBool fun scalar => ?_
  obtain ⟨func, current, _⟩ := standing₁.valid.current
  refine ensures_current standing₁.building current ?_
  refine standing₁.afterSlot fun slot second standing₂ since₂ address => ?_
  have left₂ := produced.later since₂ standing₂.live
  refine standing₂.afterStore address (left₂.rebase standing.since.toGrows)
    fun fork standing₃ kept => ?_
  have slot₃ := kept slot address
  have left₃ := kept left ⟨left₂.reads, scalar⟩
  have current₃ : fork.builder.current = some func :=
    (standing₃.since.current.trans standing₁.since.current.symm).trans current
  refine Ensures.mono (?_ : Ensures _ _ (Yields fork env (Produced fork))) fun value after yields =>
    yields.rebase standing₃.since standing₃.live fun next _ _ result =>
      result.rebase standing₃.since.toGrows
  have branch : ∀ first second, shortCircuitBranch isAnd left first second =
      Build.terminate (if isAnd then .branch left first second else .branch left second first) := by
    intro first second
    cases isAnd <;> rfl
  simp only [branch]
  refine standing₃.renew.afterFork (fun first second value operand => ?_)
    (fun first second target successor => ?_) fun rightBlock merge fourth forked working₄ => ?_
  · cases isAnd <;> rw [List.mem_singleton.1 operand] <;> exact left₃
  · cases isAnd <;> rcases List.mem_pair.1 successor with rfl | rfl <;> simp
  refine working₄.enter current₃ forked.dead forked.readyFirst (Or.inl rfl) forked.newFirst
    fun fifth moved₅ live₅ known₅ working₅ => ?_
  have slot₅ := slot₃.mono working₅.grows known₅
  refine working₅.afterExpr sound live₅ known₅ fun right sixth after working₆ since₆ produced₆ => ?_
  have merge₆ := (forked.readySecond.mono moved₅.grows).mono since₆.toGrows
  have finish : ∀ last after, last.here? = none → last.Ready merge fork.Known →
      Working fork last env after (fun other =>
        (other = rightBlock ∨ other = merge) ∧ other ≠ rightBlock) →
      Ensures (do
        build (Build.positionAt func merge)
        build (Build.load slot .bool)) after (Yields fork env (Produced fork)) := by
    intro last after dead ready working
    refine working.enter current₃ dead ready ⟨Or.inr rfl, forked.differs.symm⟩ forked.newSecond
      fun final _ live known working' => ?_
    have standing' := working'.standing (by tauto) live known
    exact standing'.emit rfl (List.forall_mem_singleton.2
      ((slot₃.mono working'.grows known).usable standing'.valid standing'.since.toGrows))
  refine working₆.afterLive (fun live₆ => ?_) fun dead₆ => ?_
  · rw [if_pos rfl]
    have standing₆ : Standing fifth sixth env after :=
      ⟨working₆.building, working₆.binding, working₅.valid, working₅.bound.mono working₅.grows known₅,
        working₆.valid, live₆, since₆⟩
    refine standing₆.afterStore (slot₅.mono since₆.toGrows (since₆.here live₆)) (produced₆ live₆)
      fun seventh standing₇ _ => ?_
    have working₇ : Working fork seventh env { after with builder := seventh.builder } _ :=
      working₅.later standing₇
    refine working₇.afterJump standing₇.live
      ((forked.readySecond.mono moved₅.grows).mono standing₇.since.toGrows)
      (fun reg known => standing₇.since.here standing₇.live reg (known₅ reg known))
      fun last dead kept working' => ?_
    exact finish last _ dead
      (kept _ _ ((forked.readySecond.mono moved₅.grows).mono standing₇.since.toGrows)) working'
  · rw [if_neg Bool.false_ne_true]
    exact finish sixth after dead₆ merge₆ working₆

/-! ### Conditionals -/

/-- A conditional with one arm. -/
theorem Standing.lowerWhen (standing : Standing now now env context) (sound : walk.Sound)
    {test : Value} (address : now.Address test) {func : FuncId}
    (current : now.builder.current = some func) (arm : ExprId) :
    Ensures (build (Build.newBlock "then") >>= fun thenBlock =>
      lowerWhen walk test func thenBlock arm) context (Yields now env (Produced now)) := by
  unfold Lowering.lowerWhen
  refine standing.afterFork
    (fun _ _ _ operand => by rw [List.mem_singleton.1 operand]; exact address)
    (fun _ _ _ successor => List.mem_pair.1 successor)
    fun thenBlock merge second forked working₂ => ?_
  refine working₂.enter current forked.dead forked.readyFirst (Or.inl rfl) forked.newFirst
    fun third moved₃ live₃ known₃ working₃ => ?_
  refine working₃.afterExpr sound live₃ known₃ fun _ fourth after working₄ since₄ _ => ?_
  have merge₄ := (forked.readySecond.mono moved₃.grows).mono since₄.toGrows
  refine working₄.afterWay merge₄ (fun live reg known => since₄.here live reg (known₃ reg known))
    fun fifth after dead₅ kept₅ working₅ => ?_
  refine working₅.enter current dead₅ (kept₅ _ _ merge₄) ⟨Or.inr rfl, forked.differs.symm⟩
    forked.newSecond fun last _ live known working₆ => ?_
  exact (working₆.standing (by tauto) live known).constant (fun _ _ => trivial) rfl

/-- What is known of the value of an arm, and of the block it ended in. -/
structure ArmValue (fork now : Moment) (arm : Value × BlockId) : Prop where
  found : now.Has arm.2
  reads : arm.1.Readable now.body.params (now.body.KnownAfter now.avail arm.2)
  spare : ∀ name ty, arm.1 = .reg name ty → ty.isAggregate = true →
    name ∈ now.builder.pinned ∨ now.Idle name ∧ ¬ fork.body.Names name
  covered : ∀ reg, fork.Known reg → now.body.KnownAfter now.avail arm.2 reg

theorem ArmValue.mono {fork later : Moment} {arm : Value × BlockId}
    (arrived : ArmValue fork now arm) (grows : Grows now later) : ArmValue fork later arm := by
  refine ⟨grows.blocks _ arrived.found, ?_, fun name ty same aggregate => ?_, fun reg known =>
    grows.knownAfter arrived.found (arrived.covered reg known)⟩
  · rw [grows.within.params]
    exact arrived.reads.mono fun reg => grows.knownAfter arrived.found
  · rcases arrived.spare name ty same aggregate with pinned | ⟨idle, new⟩
    · exact Or.inl (grows.pinned name pinned)
    · exact Or.inr ⟨grows.idle name idle, new⟩

/-- Jumps were added between blocks, and nothing else happened. -/
structure Rewired (now later : Moment) : Prop extends Grows now later where
  code : ∀ id, later.body.code id = now.body.code id

theorem Rewired.trans {middle later : Moment} (first : Rewired now middle)
    (second : Rewired middle later) : Rewired now later :=
  ⟨first.toGrows.trans second.toGrows, fun id => (second.code id).trans (first.code id)⟩

/-- An arm is joined: control goes from its end to where the arms meet. -/
theorem Working.afterJumpFrom {β : Type} {extra : BlockId → Prop} {func : FuncId} {merge : BlockId}
    {known : Register → Prop} {arm : Value × BlockId} {next : Unit → LowerM β}
    {post : β → Context → Prop} (working : Working base now env context extra)
    (current : base.builder.current = some func) (opened : now.Open arm.2)
    (away : ¬ base.Waiting arm.2) (ready : now.Ready merge known)
    (covered : ∀ reg, known reg → now.body.KnownAfter now.avail arm.2 reg)
    (rest : ∀ later, later.here? = none → Rewired now later →
      (∀ source target, later.body.Precedes source target ↔
        now.body.Precedes source target ∨ source = arm.2 ∧ target = merge) →
      Working base later env { context with builder := later.builder }
        (fun other => (extra other ∨ now.here? = some other) ∧ other ≠ arm.2) →
      Ensures (next ()) { context with builder := later.builder } post) :
    Ensures (jumpFrom func merge arm >>= next) context post := by
  unfold jumpFrom
  rw [bind_assoc]
  refine working.afterMove (working.grows.current.trans current) opened away
    fun second moved working₂ => ?_
  rw [ensures_bind, ensures_build]
  refine Ensures.mono (blockClosed (.refl second) moved.valid moved.here
    (fun _ operand => by cases operand) (List.forall_mem_singleton.2
      ((ready.mono moved.grows).target fun reg set => (known_iff moved.here).2 ?_))) ?_
  · rw [moved.body, moved.avail]
    exact covered reg set
  · rintro _ _ ⟨third, rfl, closed⟩
    refine rest third closed.here ⟨moved.grows.trans closed.grows, fun id => ?_⟩
      (fun source target => ?_) ⟨rfl, working₂.binding, working₂.start, working₂.bound, closed.valid,
        working₂.grows.trans closed.grows, fun id => ?_⟩
    · rw [closed.code, moved.body]
    · rw [closed.precedes, moved.body]
      simp only [Terminator.successors, List.mem_singleton]
    · rw [closed.waiting, working₂.waiting]

/-- All arms are joined, one after the other. -/
theorem Working.afterJumps {β : Type} {extra : BlockId → Prop} {func : FuncId} {merge : BlockId}
    {known : Register → Prop} {arms : List (Value × BlockId)} {next : Unit → LowerM β}
    {post : β → Context → Prop} (working : Working base now env context extra)
    (current : base.builder.current = some func) (ready : now.Ready merge known)
    (opened : ∀ arm ∈ arms, now.Open arm.2 ∧ ¬ base.Waiting arm.2)
    (once : (arms.map Prod.snd).Nodup)
    (covered : ∀ arm ∈ arms, ∀ reg, known reg → now.body.KnownAfter now.avail arm.2 reg)
    (dead : arms = [] → now.here? = none)
    (rest : ∀ later after, later.here? = none → Rewired now later →
      (∀ source target, later.body.Precedes source target ↔
        now.body.Precedes source target ∨ source ∈ arms.map Prod.snd ∧ target = merge) →
      Working base later env after
        (fun other => (extra other ∨ now.here? = some other) ∧ other ∉ arms.map Prod.snd) →
      Ensures (next ()) after post) :
    Ensures (arms.forM (jumpFrom func merge) >>= next) context post := by
  induction arms generalizing now context extra with
  | nil =>
    refine rest now context (dead rfl) ⟨.refl now, fun _ => rfl⟩ (by simp)
      (working.congr fun other => ?_)
    rw [dead rfl]
    simp
  | cons arm arms inductionHypothesis =>
    rw [List.map_cons, List.nodup_cons] at once
    rw [show (arm :: arms).forM (jumpFrom func merge) =
      jumpFrom func merge arm >>= fun _ => arms.forM (jumpFrom func merge) from rfl, bind_assoc]
    obtain ⟨opened₁, away₁⟩ := opened arm List.mem_cons_self
    refine working.afterJumpFrom current opened₁ away₁ ready (covered arm List.mem_cons_self)
      fun second dead₂ rewired₂ precedes₂ working₂ => ?_
    refine inductionHypothesis working₂ (ready.mono rewired₂.toGrows) (fun other member => ?_) once.2
      (fun other member reg set => ?_) (fun _ => dead₂)
      fun last after dead' rewired precedes working' => ?_
    · obtain ⟨opened', away'⟩ := opened other (List.mem_cons_of_mem _ member)
      have differs : other.2 ≠ arm.2 := fun same =>
        once.1 (same ▸ List.mem_map_of_mem member)
      refine ⟨((working₂.waiting other.2).2 (Or.inr ⟨?_, differs⟩)).1, away'⟩
      rcases (working.valid.open_iff other.2).1 opened' with waiting | here
      · exact Or.inl (((working.waiting other.2).1 waiting).resolve_left away')
      · exact Or.inr here
    · exact rewired₂.knownAfter (opened other (List.mem_cons_of_mem _ member)).1.1
        (covered other (List.mem_cons_of_mem _ member) reg set)
    · refine rest last after dead' (rewired₂.trans rewired) (fun source target => ?_)
        (working'.congr fun other => ?_)
      · rw [precedes, precedes₂, List.map_cons, List.mem_cons]
        tauto
      · rw [dead₂, List.map_cons, List.mem_cons]
        simp only [reduceCtorEq, or_false]
        tauto

theorem retype_readable {params : List Ir.Param} {known : Register → Prop} {value : Value} (ty : Ty)
    (readable : value.Readable params known) : (retype ty value).Readable params known := by
  unfold retype
  split_ifs
  · trivial
  · exact readable

theorem retype_reg {ty : Ty} {value : Value} {name : ValueName} {ty' : Ty}
    (same : retype ty value = .reg name ty') : value = .reg name ty' := by
  unfold retype at same
  split_ifs at same
  exact same

/-- The value of joined arms: the one that is there, or a phi. -/
theorem Standing.mergeValue {merge : BlockId} {arms : List (Value × BlockId)}
    (standing : Standing base now env context) (here : now.here? = some merge)
    (new : ¬ base.Has merge) (inner : merge ≠ Function.entryId) (bare : now.body.code merge = [])
    (once : (arms.map Prod.snd).Nodup)
    (entered : ∀ source, source ∈ arms.map Prod.snd ↔ now.body.Precedes source merge)
    (arrived : ∀ arm ∈ arms, ArmValue base now arm)
    (single : ∀ arm, arms = [arm] → now.Reads arm.1) (ty : Ty) :
    Ensures (mergeValue ty arms) context (Yields base env (Produced base)) := by
  have blocks : ∀ arms : List (Value × BlockId),
      (arms.map fun arm => (retype ty arm.1, arm.2)).map Prod.snd = arms.map Prod.snd := fun arms => by
    rw [List.map_map]
    rfl
  unfold Lowering.mergeValue
  split
  · next value id same =>
    obtain ⟨arm, rfl, equal⟩ := List.map_eq_singleton_iff.1 same
    cases equal
    refine standing.yields ⟨retype_readable ty (single arm rfl), fun name ty' same aggregate => ?_⟩
    exact (arrived arm List.mem_cons_self).spare name ty' (retype_reg same) aggregate
  · rw [ensures_build, standing.building]
    refine Ensures.mono (emittedPhi standing.since standing.valid here new inner bare
      (blocks arms ▸ once) (fun source => ?_) (fun arm member => ?_)
      fun arm member name named idle => ?_) ?_
    · rw [blocks]
      exact entered source
    · obtain ⟨origin, inside, rfl⟩ := List.mem_map.1 member
      exact retype_readable ty (arrived origin inside).reads
    · obtain ⟨origin, inside, rfl⟩ := List.mem_map.1 member
      cases value : retype ty origin.1 <;> rw [value] at named <;> cases named
      next ty' =>
      have reads := (arrived origin inside).reads
      rw [retype_reg value] at reads
      exact not_idle standing.valid standing.since.toGrows
        (standing.valid.certified.present_of_known reads)
        ((arrived origin inside).spare name ty' (retype_reg value)) idle
    · rintro value _ ⟨next, rfl, emitted⟩
      exact (standing.advance emitted.valid emitted.live emitted.since).yields emitted.produced

/-- The arms meet. Where they do, whatever is known at the end of every arm is known. -/
theorem Working.joinArms {extra : BlockId → Prop} {func : FuncId} {arms : List (Value × BlockId)}
    (working : Working base now env context extra) (current : base.builder.current = some func)
    (arrived : ∀ arm ∈ arms, ArmValue base now arm)
    (opened : ∀ arm ∈ arms, now.Open arm.2 ∧ ¬ base.Waiting arm.2)
    (once : (arms.map Prod.snd).Nodup)
    (all : ∀ id, extra id ∨ now.here? = some id ↔ id ∈ arms.map Prod.snd) (ty : TypeId) :
    Ensures (joinArms walk func ty arms) context (Yields base env (Produced base)) := by
  unfold Lowering.joinArms
  cases arms with
  | nil =>
    refine working.yields (fun id waits => ?_) ?_
    · cases (all id).1 (Or.inl waits)
    · cases here : now.here? with
      | none => rfl
      | some id => cases (all id).1 (Or.inr here)
  | cons arm rest =>
    rw [if_neg (by simp)]
    refine working.afterBlock
      (fun reg => ∀ arm' ∈ arm :: rest, now.body.KnownAfter now.avail arm'.2 reg)
      (fun reg known => working.valid.certified.present_of_known (known arm List.mem_cons_self))
      fun merge second added working₂ => ?_
    refine working₂.afterJumps current added.ready (fun other member => ?_) once
      (fun other member reg known => added.grows.knownAfter (arrived other member).found
        (known other member)) (fun empty => by cases empty)
      fun third after dead₃ rewired precedes working₃ => ?_
    · refine ⟨(added.valid.open_iff other.2).2 ?_, (opened other member).2⟩
      rw [added.waiting, added.here]
      rcases (working.valid.open_iff other.2).1 (opened other member).1 with waiting | here
      · exact Or.inl (Or.inl waiting)
      · exact Or.inr here
    have outside : merge ∉ (arm :: rest).map Prod.snd := fun inside => by
      obtain ⟨other, member, same⟩ := List.mem_map.1 inside
      exact added.new (same ▸ (arrived other member).found)
    have ready := added.ready.mono rewired.toGrows
    have new : ¬ base.Has merge := fun found => added.new (working.grows.blocks merge found)
    refine working₃.enter current dead₃ ready ⟨Or.inl (Or.inr rfl), outside⟩ new
      fun fourth moved live₄ known₄ working₄ => ?_
    have standing₄ := working₄.standing (fun id waits => ?_) live₄ fun reg known =>
      known₄ reg fun other member => (arrived other member).covered reg known
    · rw [ensures_bind]
      refine (ensures_lowerType walk.toSource ty).mono fun mapped after quietly => ?_
      obtain ⟨target, declares, since₅, standing₅⟩ := standing₄.quiet quietly
      have body : (fourth.retarget target).body = third.body :=
        (retarget_body standing₄.valid declares.kept).trans moved.body
      have grows : Grows now (fourth.retarget target) :=
        (added.grows.trans rewired.toGrows).trans (moved.grows.trans since₅.toGrows)
      split_ifs
      · exact standing₅.constant (fun _ _ => trivial) rfl
      · refine standing₅.mergeValue moved.here new ready.inner ?_ once (fun source => ?_)
          (fun other member => (arrived other member).mono grows) (fun other same => ?_) mapped
        · rw [body, rewired.code, added.bare]
        · rw [body, precedes]
          have unentered := added.unentered source
          tauto
        · have reads := (arrived other (same ▸ List.mem_cons_self)).reads
          rw [Reads, grows.within.params]
          refine reads.mono fun reg known => since₅.here standing₅.live reg (known₄ reg ?_)
          rw [same]
          exact List.forall_mem_singleton.2 known
    · obtain ⟨⟨(waits | merges) | here, outside'⟩, differs⟩ := waits
      · exact outside' ((all id).1 (Or.inl waits))
      · exact differs merges
      · exact outside' ((all id).1 (Or.inr (added.here ▸ here)))

/-- An arm is lowered in the block that waits for it. -/
theorem Working.afterArm {β : Type} {extra : BlockId → Prop} {func : FuncId} {id : BlockId}
    {part : ExprId} {next : Option (Value × BlockId) → LowerM β} {post : β → Context → Prop}
    (working : Working base now env context extra) (sound : walk.Sound)
    (current : base.builder.current = some func) (ready : now.Ready id base.Known)
    (waits : extra id) (new : ¬ base.Has id)
    (rest : ∀ arm later after, Grows now later → later.here? = arm.map Prod.snd →
      (∀ found ∈ arm, ArmValue base later found) →
      Working base later env after
        (fun other => (extra other ∨ now.here? = some other) ∧ other ≠ id) →
      Ensures (next arm) after post) :
    Ensures (lowerArm walk func id part >>= next) context post := by
  unfold lowerArm
  rw [bind_assoc]
  refine working.afterMove (working.grows.current.trans current) (working.open_of_extra waits)
    (fun waiting => new waiting.1.1) fun second moved working₂ => ?_
  have known₂ := (ready.mono moved.grows).known moved.here
  rw [bind_assoc]
  refine working₂.afterExpr sound (live_iff.2 ⟨id, moved.here⟩) known₂
    fun value third after working₃ since produced => ?_
  rw [bind_assoc, ensures_bind, ensures_get, working₃.building]
  refine rest _ third after (moved.grows.trans since.toGrows) ?_ (fun found member => ?_) working₃
  · rw [here?, Option.map_map]
    rfl
  · obtain ⟨cursor, positioned, rfl⟩ := Option.map_eq_some_iff.1 (Option.mem_def.1 member)
    have here : third.here? = some cursor.block := by
      rw [here?, positioned]
      rfl
    have live : third.Live := live_iff.2 ⟨_, here⟩
    have produced' := (produced live).rebase (working.grows.trans moved.grows)
    refine ⟨(working₃.valid.cursor cursor positioned).2.1, ?_, produced'.spare, fun reg known => ?_⟩
    · exact Value.Readable.mono produced'.reads fun reg => (known_iff here).1
    · exact (known_iff here).1 (since.here live reg (known₂ reg known))

/-- A conditional with two arms. -/
theorem Standing.lowerArms (standing : Standing now now env context) (sound : walk.Sound)
    {test : Value} (address : now.Address test) {func : FuncId}
    (current : now.builder.current = some func) (thenArm elseArm : ExprId) (ty : TypeId) :
    Ensures (do
      let thenBlock ← build (Build.newBlock "then")
      let elseBlock ← build (Build.newBlock "else")
      build (Build.branch test thenBlock elseBlock)
      let first ← lowerArm walk func thenBlock thenArm
      let second ← lowerArm walk func elseBlock elseArm
      joinArms walk func ty (first.toList ++ second.toList)) context
      (Yields now env (Produced now)) := by
  refine standing.afterFork
    (fun _ _ _ operand => by rw [List.mem_singleton.1 operand]; exact address)
    (fun _ _ _ successor => List.mem_pair.1 successor)
    fun thenBlock elseBlock second forked working₂ => ?_
  refine working₂.afterArm sound current forked.readyFirst (Or.inl rfl) forked.newFirst
    fun first third after grows₃ here₃ value₃ working₃ => ?_
  refine working₃.afterArm sound current (forked.readySecond.mono grows₃)
    ⟨Or.inl (Or.inr rfl), forked.differs.symm⟩ forked.newSecond
    fun other fourth after grows₄ here₄ value₄ working₄ => ?_
  rw [forked.dead] at working₃ working₄
  -- the then arm cannot end in the block that waits for the else arm
  have elsewhere : third.here? ≠ some elseBlock :=
    ((working₃.waiting elseBlock).2 (Or.inr ⟨Or.inl (Or.inr rfl), forked.differs.symm⟩)).2
  have joined : (first.toList ++ other.toList).map Prod.snd =
      third.here?.toList ++ fourth.here?.toList := by
    rw [here₃, here₄]
    cases first <;> cases other <;> rfl
  have left : ∀ id, third.here? = some id → fourth.Waiting id := fun id here =>
    (working₄.waiting id).2 (Or.inr ⟨Or.inr here, fun same => elsewhere (same ▸ here)⟩)
  have away₃ : ∀ id, third.here? = some id → ¬ now.Waiting id := fun id here waiting =>
    ((working₃.waiting id).2 (Or.inl waiting)).2 here
  have away₄ : ∀ id, fourth.here? = some id → ¬ now.Waiting id := fun id here waiting =>
    ((working₄.waiting id).2 (Or.inl waiting)).2 here
  refine working₄.joinArms current (fun arm member => ?_) (fun arm member => ?_) ?_ (fun id => ?_) ty
  · rcases List.mem_append.1 member with inside | inside
    · exact (value₃ arm (Option.mem_toList.1 inside)).mono grows₄
    · exact value₄ arm (Option.mem_toList.1 inside)
  · rcases List.mem_append.1 member with inside | inside
    · have here : third.here? = some arm.2 := by
        rw [here₃, Option.mem_toList.1 inside]
        rfl
      exact ⟨(left arm.2 here).1, away₃ arm.2 here⟩
    · have here : fourth.here? = some arm.2 := by
        rw [here₄, Option.mem_toList.1 inside]
        rfl
      exact ⟨(working₄.valid.open_iff arm.2).2 (Or.inr here), away₄ arm.2 here⟩
  · rw [joined]
    cases first' : third.here? with
    | none => cases fourth.here? <;> simp
    | some id =>
      cases other' : fourth.here? with
      | none => simp
      | some id' =>
        have differs : id ≠ id' := fun same => (left id first').2 (other'.trans (same ▸ rfl))
        simpa using differs
  · rw [joined, List.mem_append, Option.mem_toList, Option.mem_toList]
    refine or_congr_left ⟨?_, fun here => ⟨Or.inr here, fun same => elsewhere (same ▸ here)⟩⟩
    rintro ⟨⟨(first | second) | impossible, differs⟩ | here, differs'⟩
    · exact absurd first differs
    · exact absurd second differs'
    · cases impossible
    · exact here

theorem Standing.lowerCond (standing : Standing base now env context) (sound : walk.Sound)
    (test thenArm : ExprId) (elseArm : Option ExprId) (ty : TypeId) (span : Span) :
    Ensures (lowerCond walk test thenArm elseArm ty span) context
      (Yields base env (Produced base)) := by
  refine standing.withValue sound fun test fork after standing₁ _ produced => ?_
  rw [ensures_bind]
  refine ensures_expectBool fun scalar => ?_
  obtain ⟨func, current, _⟩ := standing₁.valid.current
  refine ensures_current standing₁.building current ?_
  have address : fork.Address test := ⟨produced.reads, scalar⟩
  refine Ensures.mono (?_ : Ensures _ _ (Yields fork env (Produced fork))) fun value after yields =>
    yields.rebase standing₁.since standing₁.live fun next _ _ result =>
      result.rebase standing₁.since.toGrows
  cases elseArm with
  | none => exact standing₁.renew.lowerWhen sound address current thenArm
  | some elseArm => exact standing₁.renew.lowerArms sound address current thenArm elseArm ty

end Branch

end TreeLowering.Lowering
