/-
This file follows a call of the expression lowering through the construct that makes it. A construct
makes a call if it fails with whatever error is put in the place of that call. What it does with the
outcome is said by one judgement: an error of the call is an error of the construct, and what the
call has built is spared until the construct ends. Sequences, dead code and the brackets around
scopes and loops each have a rule.
-/

import TreeLowering.Proofs.Calls.Mirror
import TreeLowering.Proofs.Calls.Spared

namespace TreeLowering.Lowering

open TreeLowering.Ir TreeLowering.Tree

/-! ### Calls -/

/-- What an expression is lowered to: its value, or the address it denotes. -/
inductive Manner where
  | value
  | place
deriving DecidableEq, Repr

@[reducible] def Manner.Answer : Manner → Type
  | value => Value
  | place => Place

/-- A call of the expression lowering: what is lowered, to what, and from which state. -/
structure Request where
  manner : Manner
  expr : ExprId
  before : Context

namespace Walk

/-- Lowers a part in the given manner. -/
def lower (walk : Walk) : (manner : Manner) → ExprId → LowerM manner.Answer
  | .value => walk.expr
  | .place => walk.place

/-- The outcome of a call. -/
def outcome (walk : Walk) (request : Request) :
    EStateM.Result Error Context request.manner.Answer :=
  walk.lower request.manner request.expr request.before

open Classical in
/-- Lowers a part as the walk does, but fails with the alarm in the place of one call. -/
noncomputable def refused (walk : Walk) (request : Request) (alarm : Error) (manner : Manner)
    (part : ExprId) : LowerM manner.Answer := fun context =>
  if request = ⟨manner, part, context⟩ then .error alarm context
  else walk.lower manner part context

theorem refused_self (walk : Walk) (alarm : Error) (manner : Manner) (part : ExprId)
    (context : Context) : walk.refused ⟨manner, part, context⟩ alarm manner part context =
      .error alarm context := if_pos rfl

/-- The walk that fails with the alarm in the place of one call. -/
@[reducible] noncomputable def refusing (walk : Walk) (request : Request) (alarm : Error) : Walk :=
  walk.through (walk.refused request alarm .value) (walk.refused request alarm .place)

end Walk

/-- The action ends with the given error. -/
def Raises {α : Type} (action : LowerM α) (context : Context) (cause : Error) : Prop :=
  ∃ after, action context = .error cause after

/-! ### Standing in a construct -/

/-- A point in the lowering of a construct: there are the blocks that are awaited, and among them
the edges of the loop around. -/
structure Poised (func : FuncId) (awaited : BlockId → Prop) (frames : List Frame)
    (context : Context) : Prop where
  work : context.builder.AtWork
  here : context.builder.current = some func
  present : ∀ id, awaited id → context.builder.Has id
  around : context.env.frames = frames
  loop : LoopIn awaited frames

/-- What a part leaves behind wherever it is lowered. -/
def Walk.Orderly (walk : Walk) : Prop :=
  ∀ {func awaited frames context}, Poised func awaited frames context → ∀ manner part,
    Returns (walk.lower manner part) context fun _ after =>
      after.env.frames = frames ∧ Builder.Spares awaited context.builder after.builder

/-- What becomes of a call that is made by a construct begun at `start`. -/
structure Handed {α : Type} (walk : Walk) (start : Context) (request : Request)
    (result : EStateM.Result Error Context α) : Prop where
  work : request.before.builder.AtWork
  loop : LoopIn request.before.builder.Has request.before.env.frames
  current : request.before.builder.current = start.builder.current
  blocks : ∀ id, start.builder.Has id → request.before.builder.Has id
  /-- When the call fails, so does the construct. -/
  failed : ∀ {cause middle}, walk.outcome request = .error cause middle →
    ∃ after, result = .error cause after
  /-- Control comes to what the call has built by the ways of the call only. -/
  returned : ∀ {answer middle answer' after}, walk.outcome request = .ok answer middle →
    result = .ok answer' after →
    Builder.Spares request.before.builder.Has middle.builder after.builder

/-- What a construct does around the calls it makes, each of which has a seat in it; `mirror` is the
construct with an error in the place of a call. -/
structure Followed {α : Type} (walk : Walk) (seat : Request → Prop) (func : FuncId)
    (awaited : BlockId → Prop) (frames : List Frame) (action : LowerM α)
    (mirror : Request → Error → LowerM α) (context : Context) : Prop where
  /-- The construct spares what was there, and only a call blames a jump. -/
  keeps : Ends action context
    (fun _ after => after.env.frames = frames ∧
      Builder.Spares awaited context.builder after.builder)
    fun cause _ => cause.isStray = true → ∃ request, seat request ∧
      (∃ middle, walk.outcome request = .error cause middle) ∧
      ∀ alarm, Raises (mirror request alarm) context alarm
  /-- Whatever error is in the place of a call, it is raised, or it makes no difference. -/
  reached : ∀ request, (∀ alarm, mirror request alarm context = action context) ∨
    (∀ alarm, Raises (mirror request alarm) context alarm) ∧ seat request ∧
      Handed walk context request (action context)

/-- The construct is followed from any point it may stand at. -/
def Follows {α : Type} (walk : Walk) (seat : Request → Prop) (func : FuncId)
    (awaited : BlockId → Prop) (frames : List Frame) (action : LowerM α)
    (mirror : Request → Error → LowerM α) (context : Context) : Prop :=
  Poised func awaited frames context → Followed walk seat func awaited frames action mirror context

section Rules

variable {α β : Type} {walk : Walk} {seat : Request → Prop} {func : FuncId}
  {awaited : BlockId → Prop} {frames : List Frame} {context : Context}

theorem Poised.later {after : Context} (poised : Poised func awaited frames context)
    (same : after.env.frames = frames)
    (spares : Builder.Spares awaited context.builder after.builder) :
    Poised func awaited frames after :=
  ⟨spares.work, spares.current.trans poised.here,
    fun id waits => spares.blocks id (poised.present id waits), same, poised.loop⟩

theorem Poised.rules (poised : Poised func awaited frames context) :
    (Regime.between awaited context.builder).Rules context := by
  have loop : LoopIn (fun id => context.builder.Has id → awaited id) context.env.frames :=
    (poised.around ▸ poised.loop).mono fun _ waits _ => waits
  exact ⟨.refl poised.work, loop⟩

theorem Handed.later {start later : Context} {request : Request}
    {result : EStateM.Result Error Context α} (handed : Handed walk later request result)
    (current : later.builder.current = start.builder.current)
    (blocks : ∀ id, start.builder.Has id → later.builder.Has id) :
    Handed walk start request result :=
  ⟨handed.work, handed.loop, handed.current.trans current,
    fun id found => handed.blocks id (blocks id found), handed.failed, handed.returned⟩

/-- An error of the first action is raised by both in a row. -/
theorem Raises.bind {action : LowerM α} {next : α → LowerM β} {cause : Error}
    (raises : Raises action context cause) : Raises (action >>= next) context cause := by
  obtain ⟨after, raised⟩ := raises
  exact ⟨after, run_bind_error raised⟩

/-- So is an error of the second one, where the first returns. -/
theorem Raises.later {action : LowerM α} {next : α → LowerM β} {result : α} {between : Context}
    {cause : Error} (raises : Raises (next result) between cause)
    (returned : action context = .ok result between) : Raises (action >>= next) context cause := by
  obtain ⟨after, raised⟩ := raises
  exact ⟨after, (run_bind returned).trans raised⟩

/-- A call of the first action is made by both in a row, if the second one spares what it has to. -/
theorem Handed.bind {action : LowerM α} {next : α → LowerM β} {request : Request}
    (handed : Handed walk context request (action context))
    (present : ∀ id, awaited id → context.builder.Has id)
    (spares : ∀ {result between answer after}, action context = .ok result between →
      next result between = .ok answer after →
      Builder.Spares awaited between.builder after.builder) :
    Handed walk context request ((action >>= next) context) := by
  refine ⟨handed.work, handed.loop, handed.current, handed.blocks, fun failed => ?_,
    fun {_ _ _ _} answered whole => ?_⟩
  · obtain ⟨after, failed⟩ := handed.failed failed
    exact ⟨after, run_bind_error failed⟩
  · obtain ⟨result, between, returned, rested⟩ := run_bind_ok whole
    exact (handed.returned answered returned).trans (spares returned rested) fun id _ waits =>
      handed.blocks id (present id waits)

/-! ### Rules -/

/-- What leaving a loop does to the frames depends on the frames only. -/
theorem Env.frames_popLoop {first second : Env} (same : first.frames = second.frames) :
    first.popLoop.frames = second.popLoop.frames := by
  obtain ⟨_, frames⟩ := first
  obtain ⟨_, frames'⟩ := second
  cases same
  cases frames <;> rfl

/-- What makes no calls, although it may bind names. -/
theorem Follows.names {view : Env → Env} {action : LowerM α} {post : α → Context → Prop}
    (keeps : Keeps (Regime.between awaited context.builder) view action context post) :
    Follows walk seat func awaited frames action (fun _ _ => action) context := by
  refine fun poised => ⟨?_, fun _ => .inl fun _ => rfl⟩
  refine (keeps poised.rules).mono (fun _ after ⟨same, rules, _⟩ => ?_) fun cause _ ⟨_, tame⟩ => ?_
  · exact ⟨same.frames.trans poised.around, rules.holds⟩
  · intro stray
    rw [tame] at stray
    cases stray

/-- What makes no calls. -/
theorem Follows.done {action : LowerM α} {post : α → Context → Prop}
    (keeps : Keeps (Regime.between awaited context.builder) id action context post) :
    Follows walk seat func awaited frames action (fun _ _ => action) context := .names keeps

theorem Follows.glue {action : LowerM α}
    (keeps : Keeps (Regime.between awaited context.builder) id action context fun _ _ => True) :
    Follows walk seat func awaited frames action (fun _ _ => action) context := .names keeps

/-- One action after the other; what makes the calls of the first one is done with them. -/
theorem Follows.bind {action : LowerM α} {mirror : Request → Error → LowerM α}
    {next : α → LowerM β} {next' : Request → Error → α → LowerM β}
    (part : Follows walk seat func awaited frames action mirror context)
    (rest : ∀ result after, action context = .ok result after →
      Follows walk seat func awaited frames (next result)
        (fun request alarm => next' request alarm result) after) :
    Follows walk seat func awaited frames (action >>= next)
      (fun request alarm => mirror request alarm >>= next' request alarm) context := by
  intro poised
  have first := part poised
  have middle : ∀ {result between}, action context = .ok result between →
      Builder.Spares awaited context.builder between.builder ∧
        Followed walk seat func awaited frames (next result)
          (fun request alarm => next' request alarm result) between := fun returned => by
    obtain ⟨same, spares⟩ := first.keeps.of_ok returned
    exact ⟨spares, rest _ _ returned (poised.later same spares)⟩
  -- a call of the rest is made from where the first action returned, or in the first action
  have raises : ∀ {request alarm result between}, action context = .ok result between →
      Raises (next' request alarm result) between alarm →
      Raises (mirror request alarm >>= next' request alarm) context alarm := by
    intro request alarm result between returned raised
    rcases first.reached request with same | ⟨raises, _⟩
    · exact raised.later ((same alarm).trans returned)
    · exact (raises alarm).bind
  refine ⟨?_, fun request => ?_⟩
  · cases ended : action context with
    | ok result between =>
      obtain ⟨spares, second⟩ := middle ended
      unfold Ends
      rw [run_bind ended]
      refine second.keeps.mono (fun _ after ⟨same, spares'⟩ => ⟨same, spares.trans spares'
        fun _ _ waits => waits⟩) fun cause _ blames stray => ?_
      obtain ⟨request, seated, fails, raised⟩ := blames stray
      exact ⟨request, seated, fails, fun alarm => raises ended (raised alarm)⟩
    | error cause between =>
      unfold Ends
      rw [run_bind_error ended]
      intro stray
      obtain ⟨request, seated, fails, raised⟩ := first.keeps.of_error ended stray
      exact ⟨request, seated, fails, fun alarm => (raised alarm).bind⟩
  · rcases first.reached request with same | ⟨raised, seated, handed⟩
    · cases ended : action context with
      | ok result between =>
        obtain ⟨spares, second⟩ := middle ended
        rw [run_bind ended]
        rcases second.reached request with same' | ⟨raised, seated, handed⟩
        · exact .inl fun alarm => (run_bind ((same alarm).trans ended)).trans (same' alarm)
        · exact .inr ⟨fun alarm => (raised alarm).later ((same alarm).trans ended), seated,
            handed.later spares.current spares.blocks⟩
      | error cause between =>
        rw [run_bind_error ended]
        exact .inl fun alarm => run_bind_error ((same alarm).trans ended)
    · exact .inr ⟨fun alarm => (raised alarm).bind, seated, handed.bind poised.present
        fun returned rested => ((middle returned).2.keeps.of_ok rested).2⟩

/-- A step between calls, after which other blocks may be awaited than before. -/
theorem Follows.stepTo {action : LowerM α} {post : α → Context → Prop}
    {next : α → LowerM β} {next' : Request → Error → α → LowerM β} {awaited' : α → BlockId → Prop}
    (keeps : Keeps (Regime.between awaited context.builder) id action context post)
    (wider : ∀ result id, awaited id → awaited' result id)
    (new : ∀ result after, post result after → ∀ id, awaited' result id →
      awaited id ∨ ¬ context.builder.Has id ∧ after.builder.Has id)
    (rest : ∀ result after, action context = .ok result after → post result after →
      Follows walk seat func (awaited' result) frames (next result)
        (fun request alarm => next' request alarm result) after) :
    Follows walk seat func awaited frames (action >>= next)
      (fun request alarm => action >>= next' request alarm) context := by
  intro poised
  have ends := keeps poised.rules
  cases ended : action context with
  | ok result between =>
    obtain ⟨same, rules, holds⟩ := ends.of_ok ended
    have spares : Builder.Spares awaited context.builder between.builder := rules.holds
    have second := rest result between ended holds ⟨spares.work, spares.current.trans poised.here,
      fun id waits => by
      rcases new result between holds id waits with old | ⟨_, found⟩
      · exact spares.blocks id (poised.present id old)
      · exact found, same.frames.trans poised.around, poised.loop.mono (wider result)⟩
    refine ⟨?_, fun request => ?_⟩
    · unfold Ends
      rw [run_bind ended]
      refine second.keeps.mono (fun _ after ⟨same, spares'⟩ => ⟨same, spares.trans spares'
        fun id found waits => ?_⟩) fun cause _ blames stray => ?_
      · exact (new result between holds id waits).resolve_right fun fresh => fresh.1 found
      · obtain ⟨request, seated, fails, raised⟩ := blames stray
        exact ⟨request, seated, fails, fun alarm => (raised alarm).later ended⟩
    · rw [run_bind ended]
      rcases second.reached request with same | ⟨raised, seated, handed⟩
      · exact .inl fun alarm => (run_bind ended).trans (same alarm)
      · exact .inr ⟨fun alarm => (raised alarm).later ended, seated,
          handed.later spares.current spares.blocks⟩
  | error cause between =>
    obtain ⟨_, tame⟩ := ends.of_error ended
    refine ⟨?_, fun request => .inl fun alarm => ?_⟩
    · unfold Ends
      rw [run_bind_error ended]
      intro stray
      rw [tame] at stray
      cases stray
    · rw [run_bind_error ended, run_bind_error ended]

/-- A step between calls, and what is known after it. -/
theorem Follows.step {action : LowerM α} {post : α → Context → Prop}
    {next : α → LowerM β} {next' : Request → Error → α → LowerM β}
    (keeps : Keeps (Regime.between awaited context.builder) id action context post)
    (rest : ∀ result after, action context = .ok result after → post result after →
      Follows walk seat func awaited frames (next result)
        (fun request alarm => next' request alarm result) after) :
    Follows walk seat func awaited frames (action >>= next)
      (fun request alarm => action >>= next' request alarm) context :=
  .stepTo keeps (fun _ _ => id) (fun _ _ _ _ => .inl) rest

/-- A question about the state. -/
theorem Follows.read {question : Context → α} {next : α → LowerM β}
    {next' : Request → Error → α → LowerM β}
    (rest : Follows walk seat func awaited frames (next (question context))
      (fun request alarm => next' request alarm (question context)) context) :
    Follows walk seat func awaited frames ((do return question (← get)) >>= next)
      (fun request alarm => (do return question (← get)) >>= next' request alarm) context :=
  Follows.step Keeps.read fun _ _ _ ⟨answer, same⟩ => by
    subst answer same
    exact rest

/-- From when a block is made, control may be led there. -/
theorem Follows.newBlock {hint : String} {next : BlockId → LowerM β}
    {next' : Request → Error → BlockId → LowerM β}
    (rest : ∀ block after, build (Build.newBlock hint) context = .ok block after →
      Follows walk seat func (fun id => awaited id ∨ id = block) frames (next block)
        (fun request alarm => next' request alarm block) after) :
    Follows walk seat func awaited frames (build (Build.newBlock hint) >>= next)
      (fun request alarm => build (Build.newBlock hint) >>= next' request alarm) context := by
  have opened : Keeps (Regime.between awaited context.builder) id (build (Build.newBlock hint))
      context fun block after => ¬ context.builder.Has block ∧ after.builder.Has block :=
    .build (fun cause _ failed =>
      Error.isStray_of_isPlain ((Build.stays_newBlock hint _).of_error failed))
      fun block after spares returned => spares.newBlock hint block after returned
  refine .stepTo opened (fun _ _ => .inl) (fun block after ⟨new, found⟩ id waits => ?_)
    fun block after returned _ => rest block after returned
  rcases waits with old | rfl
  · exact .inl old
  · exact .inr ⟨new, found⟩

/-- The function being built stays the same all along. -/
theorem Follows.currentFunction {next : FuncId → LowerM β}
    {next' : Request → Error → FuncId → LowerM β}
    (rest : ∀ after, Lowering.currentFunction context = .ok func after →
      Follows walk seat func awaited frames (next func)
        (fun request alarm => next' request alarm func) after) :
    Follows walk seat func awaited frames (Lowering.currentFunction >>= next)
      (fun request alarm => Lowering.currentFunction >>= next' request alarm) context := fun poised =>
  Follows.step (Regime.between.steady walk.toSource awaited context.builder).currentFunction
    (fun result after returned holds => by
      cases Option.some.inj (poised.here.symm.trans holds.1)
      exact rest after returned) poised

/-- The cursor moves within the function being built. -/
theorem Follows.positionAt {block : BlockId} {next : Unit → LowerM β}
    {next' : Request → Error → Unit → LowerM β}
    (rest : ∀ after, build (Build.positionAt func block) context = .ok () after → after.Live →
      Follows walk seat func awaited frames (next ())
        (fun request alarm => next' request alarm ()) after) :
    Follows walk seat func awaited frames (build (Build.positionAt func block) >>= next)
      (fun request alarm => build (Build.positionAt func block) >>= next' request alarm) context :=
  fun poised => Follows.step
    ((Regime.between.steady walk.toSource awaited context.builder).positionAt poised.here trivial)
    (fun _ after returned live => rest after returned live) poised

/-- A part that has a seat in the construct. -/
theorem Follows.part (orderly : walk.Orderly) (manner : Manner) {part : ExprId}
    (seated : context.env.frames = frames → seat ⟨manner, part, context⟩) :
    Follows walk seat func awaited frames (walk.lower manner part)
      (fun request alarm => walk.refused request alarm manner part) context := by
  intro poised
  have returns := orderly poised manner part
  have raises : ∀ alarm, Raises (walk.refused ⟨manner, part, context⟩ alarm manner part) context
      alarm := fun alarm => ⟨context, walk.refused_self alarm manner part context⟩
  refine ⟨?_, fun request => ?_⟩
  · unfold Ends
    cases ended : walk.lower manner part context with
    | ok answer after => exact returns answer after ended
    | error cause after =>
      exact fun _ => ⟨_, seated poised.around, ⟨after, ended⟩, raises⟩
  · by_cases same : request = ⟨manner, part, context⟩
    · subst same
      have loop : LoopIn context.builder.Has context.env.frames := by
        rw [poised.around]
        exact poised.loop.mono poised.present
      refine .inr ⟨raises, seated poised.around, poised.work, loop, rfl, fun _ => id,
        fun failed => ⟨_, failed⟩, fun answered returned => ?_⟩
      cases answered.symm.trans returned
      exact .refl (returns _ _ returned).2.work
    · exact .inl fun alarm => if_neg same

theorem Follows.thenLive {dead : β} {action : LowerM α} {mirror : Request → Error → LowerM α}
    {next : α → LowerM β} {next' : Request → Error → α → LowerM β}
    (part : Follows walk seat func awaited frames action mirror context)
    (rest : ∀ result after, Follows walk seat func awaited frames (next result)
      (fun request alarm => next' request alarm result) after) :
    Follows walk seat func awaited frames (thenLive dead action next)
      (fun request alarm => thenLive dead (mirror request alarm) (next' request alarm))
      context := by
  refine part.bind fun result after _ => Follows.read ?_
  cases after.builder.cursor.isSome
  · exact .glue (.pure trivial)
  · exact rest result after

theorem Follows.discard {action : LowerM α} {mirror : Request → Error → LowerM α}
    (part : Follows walk seat func awaited frames action mirror context) :
    Follows walk seat func awaited frames (discard action)
      (fun request alarm => Functor.discard (mirror request alarm)) context := by
  have unfolded : ∀ action : LowerM α, Functor.discard action = action >>= fun _ => pure () := by
    intro action
    rw [Functor.discard, map_const, Function.comp_apply, bind_pure_comp]
  simp only [unfolded]
  exact part.bind fun _ after _ => .glue (.pure trivial)

/-- What is done around an action concerns its environment only. -/
theorem Follows.around {frames' : List Frame} {action : LowerM α}
    {mirror : Request → Error → LowerM α} {whole : LowerM α → LowerM α} (enter : Context → Context)
    (leave : Context → Context → Context)
    (opens : ∀ action context, whole action context = match action (enter context) with
      | .ok result after => .ok result (leave context after)
      | .error cause after => .error cause (leave context after))
    (entered : Poised func awaited frames context →
      (enter context).builder = context.builder ∧ (enter context).env.frames = frames')
    (left : ∀ after : Context, context.env.frames = frames → after.env.frames = frames' →
      (leave context after).builder = after.builder ∧ (leave context after).env.frames = frames)
    (loop : LoopIn awaited frames → LoopIn awaited frames')
    (inside : Follows walk seat func awaited frames' action mirror (enter context)) :
    Follows walk seat func awaited frames (whole action)
      (fun request alarm => whole (mirror request alarm)) context := by
  intro poised
  obtain ⟨same, around⟩ := entered poised
  have first := inside ⟨same ▸ poised.work, same ▸ poised.here,
    fun id waits => same ▸ poised.present id waits, around, loop poised.loop⟩
  have raises : ∀ {request alarm}, Raises (mirror request alarm) (enter context) alarm →
      Raises (whole (mirror request alarm)) context alarm := by
    rintro request alarm ⟨after, raised⟩
    exact ⟨leave context after, by rw [opens, raised]⟩
  have keeps := first.keeps
  refine ⟨?_, fun request => ?_⟩
  · unfold Ends at *
    rw [opens]
    cases ended : action (enter context) with
    | ok result after =>
      rw [ended, same] at keeps
      obtain ⟨builder, frames''⟩ := left after poised.around keeps.1
      exact ⟨frames'', builder ▸ keeps.2⟩
    | error cause after =>
      rw [ended] at keeps
      intro stray
      obtain ⟨request, seated, fails, raised⟩ := keeps stray
      exact ⟨request, seated, fails, fun alarm => raises (raised alarm)⟩
  · rw [opens]
    rcases first.reached request with same' | ⟨raised, seated, handed⟩
    · exact .inl fun alarm => by rw [opens, same']
    · refine .inr ⟨fun alarm => raises (raised alarm), seated, handed.work, handed.loop,
        handed.current.trans (by rw [same]), fun id found => handed.blocks id (same ▸ found),
        fun failed => ?_, fun answered returned => ?_⟩
      · obtain ⟨after, failed⟩ := handed.failed failed
        exact ⟨leave context after, by rw [failed]⟩
      · cases ended : action (enter context) with
        | ok result after =>
          rw [ended] at returned
          cases returned
          obtain ⟨builder, _⟩ := left after poised.around (first.keeps.of_ok ended).1
          rw [builder]
          exact handed.returned answered ended
        | error cause after =>
          rw [ended] at returned
          cases returned

theorem Follows.inScope {scope : ScopeId} {action : LowerM α}
    {mirror : Request → Error → LowerM α}
    (inside : Follows walk seat func awaited frames action mirror (context.enterScope scope)) :
    Follows walk seat func awaited frames (inScope scope action)
      (fun request alarm => Lowering.inScope scope (mirror request alarm)) context :=
  .around (·.enterScope scope) (fun before after => after.leaveScope before.scope)
    (fun _ _ => rfl) (fun poised => ⟨rfl, poised.around⟩) (fun _ _ same => ⟨rfl, same⟩) id inside

/-- The targets of a loop are awaited while its body is lowered. -/
theorem Follows.inLoop {targets : LoopTargets} {action : LowerM α}
    {mirror : Request → Error → LowerM α} (leave : awaited targets.breakTo)
    (again : awaited targets.continueTo)
    (inside : Follows walk seat func awaited (context.env.pushLoop targets).frames action mirror
      { context with env := context.env.pushLoop targets }) :
    Follows walk seat func awaited frames (inLoop targets action)
      (fun request alarm => Lowering.inLoop targets (mirror request alarm)) context := by
  intro poised
  have popped : ∀ after : Context, after.env.frames = (context.env.pushLoop targets).frames →
      after.env.popLoop.frames = frames := by
    intro after same
    rw [Env.frames_popLoop same, Env.popLoop_pushLoop, poised.around]
  refine Follows.around (fun before => { before with env := before.env.pushLoop targets })
    (fun _ after => { after with env := after.env.popLoop }) (fun _ _ => rfl)
    (fun _ => ⟨rfl, rfl⟩) (fun after _ same => ⟨rfl, popped after same⟩) (fun loop => ?_) inside
    poised
  rw [← poised.around] at loop
  exact loop.pushLoop leave again

end Rules

end TreeLowering.Lowering
