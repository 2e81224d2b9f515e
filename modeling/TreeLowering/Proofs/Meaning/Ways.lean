/-
This file follows the lowering of constructs in which control goes more than one way. Such a
construct makes blocks before it lowers the code for them. A block that was made is left alone until
the cursor comes to it, so a run that enters the block meets the code that was emitted from then on.
-/

import TreeLowering.Proofs.Flow.Branch
import TreeLowering.Proofs.Meaning.Memory

namespace TreeLowering.Lowering

open TreeLowering.Ir TreeLowering.Tree

/-! ### Blocks of a construct -/

namespace Builder

variable {base now later : Builder} {id other : BlockId}

/-- A block that was made since `base` and that the cursor has not come to. -/
structure Prepared (base now : Builder) (id : BlockId) : Prop where
  waits : now.Waits id
  bare : now.body.plain id = []
  new : ¬ base.Has id
  inner : id ≠ Function.entryId

theorem Opens.prepared (opens : Opens now later id) (leads : Leads base now) :
    Prepared base later id :=
  ⟨opens.waits, opens.bare, fun found => opens.new (leads.has found), opens.inner⟩

theorem Prepared.still (prepared : Prepared base now id) (leads : Leads now later) :
    Prepared base later id :=
  ⟨prepared.waits.still leads, (prepared.waits.plain leads).trans prepared.bare, prepared.new,
    prepared.inner⟩

theorem Prepared.beside (prepared : Prepared base now id) (moves : Moves now later other)
    (differs : id ≠ other) : Prepared base later id :=
  ⟨moves.waits prepared.waits.opened differs, by rw [moves.body]; exact prepared.bare, prepared.new,
    prepared.inner⟩

/-- A block is made only once. -/
theorem Opens.differs (opens : Opens now later id) (prepared : Prepared base now other) :
    other ≠ id := fun same => opens.new (same ▸ prepared.waits.opened.1)

/-- The cursor came to a block that was prepared. -/
structure Enters (base now later : Builder) (id : BlockId) : Prop extends Moves now later id where
  leads : Leads base later
  bare : later.body.plain id = []

/-- Two blocks were made, and the block at the cursor was closed. -/
structure Forks (now later : Builder) (id : BlockId) (terminator : Terminator)
    (way way' : BlockId) : Prop extends Closes now later id terminator where
  first : Prepared now later way
  second : Prepared now later way'
  differs : way ≠ way'

/-- Control goes on to `target` if it comes to the end of the code. -/
structure Passes (now later : Builder) (target : BlockId) : Prop where
  fit : later.Fit
  leads : Leads now later
  exits : ∀ id, now.here? = some id → Exits now later id (.jump target)

end Builder

open Builder

/-! ### Steps of a construct -/

section Steps

variable {β : Type} {source : Source} {site : Site} {base : Builder} {context after : Context}
  {func : FuncId} {id : BlockId} {post : β → Context → Prop}

theorem Stands.gives (stands : Stands source site context) :
    Gives source site context.builder context :=
  ⟨stands.fit, .refl _, stands.env, stands.memo⟩

theorem Gives.trans (first : Gives source site base context)
    (second : Gives source site context.builder after) : Gives source site base after :=
  ⟨second.fit, first.leads.trans second.leads, second.env, second.memo⟩

theorem Gives.built {later : Builder} (gives : Gives source site base context) (fit : later.Fit)
    (leads : Leads base later) : Gives source site base { context with builder := later } :=
  ⟨fit, leads, gives.env, gives.memo⟩

theorem Stands.withFunction {next : FuncId → LowerM β} (stands : Stands source site context)
    (rest : ∀ func, context.builder.current = some func → Ensures (next func) context post) :
    Ensures (currentFunction >>= next) context post := by
  obtain ⟨func, current, _⟩ := stands.fit.current
  unfold currentFunction
  rw [ensures_bind, ensures_build, ensures_currentFunction current]
  exact rest func current

theorem Gives.withBlock {hint : String} {next : BlockId → LowerM β}
    (gives : Gives source site base context)
    (rest : ∀ id later, Opens context.builder later id →
      Gives source site base { context with builder := later } →
      Ensures (next id) { context with builder := later } post) :
    Ensures (build (Build.newBlock hint) >>= next) context post := by
  rw [ensures_bind, ensures_build]
  exact (gives.fit.newBlock hint).mono fun id later opens =>
    rest id later opens (gives.built opens.fit (gives.leads.trans opens.leads))

theorem Gives.close {terminator : Terminator} {next : Unit → LowerM β}
    (gives : Gives source site base context) (here : context.builder.here? = some id)
    (rest : ∀ later, Closes context.builder later id terminator →
      Gives source site base { context with builder := later } →
      Ensures (next ()) { context with builder := later } post) :
    Ensures (build (Build.terminate terminator) >>= next) context post := by
  rw [ensures_bind, ensures_build]
  exact (gives.fit.terminate here).mono fun _ later closes =>
    rest later closes (gives.built closes.fit (gives.leads.trans closes.leads))

/-- The ways part. -/
theorem Stands.fork {hint hint' : String} {terminator : BlockId → BlockId → Terminator}
    {next : BlockId → BlockId → LowerM β} (stands : Stands source site context)
    (here : context.builder.here? = some id)
    (rest : ∀ way way' later, Forks context.builder later id (terminator way way') way way' →
      Gives source site context.builder { context with builder := later } →
      Ensures (next way way') { context with builder := later } post) :
    Ensures (do
      let way ← build (Build.newBlock hint)
      let way' ← build (Build.newBlock hint')
      build (Build.terminate (terminator way way'))
      next way way') context post := by
  refine stands.gives.withBlock fun way second opens gives₂ => ?_
  refine gives₂.withBlock fun way' third opens' gives₃ => ?_
  have prepared := opens.prepared (.refl context.builder)
  refine gives₃.close ((opens'.here.trans opens.here).trans here) fun later closes gives₄ => ?_
  refine rest way way' later ⟨⟨⟨?_, closes.exit⟩, closes.fit, gives₄.leads, closes.here⟩,
    (prepared.still opens'.leads).still closes.leads, (opens'.prepared opens.leads).still closes.leads,
    opens'.differs prepared⟩ gives₄
  rw [closes.plain, opens'.plain, opens.plain]

/-- The cursor comes to a block that was prepared. -/
theorem Gives.enter {next : Unit → LowerM β} (gives : Gives source site base context)
    (current : base.current = some func) (prepared : Prepared base context.builder id)
    (rest : ∀ later, Enters base context.builder later id →
      Gives source site base { context with builder := later } →
      Ensures (next ()) { context with builder := later } post) :
    Ensures (build (Build.positionAt func id) >>= next) context post := by
  rw [ensures_bind, ensures_build]
  refine (gives.fit.positionAt (gives.leads.current.trans current) prepared.waits.opened).mono
    fun _ later moves => ?_
  have leads := gives.leads.moved moves prepared.new
  exact rest later ⟨moves, leads, by rw [moves.body]; exact prepared.bare⟩ (gives.built moves.fit leads)

/-- What comes next may depend on whether control gets there. -/
theorem afterLive {next : Bool → LowerM β}
    (alive : (∃ id, context.builder.here? = some id) → Ensures (next true) context post)
    (dead : context.builder.here? = none → Ensures (next false) context post) :
    Ensures (isLive >>= next) context post := by
  rw [ensures_bind, ensures_isLive]
  cases live : context.builder.cursor.isSome with
  | true => exact alive (here_of_isSome live)
  | false => exact dead (here_of_not_isSome (by rw [live]; exact Bool.false_ne_true))

/-- Control goes on to a block if it gets to the end of a way. -/
theorem Gives.pass {target : BlockId} {next : Unit → LowerM β}
    (gives : Gives source site base context)
    (rest : ∀ later, Passes context.builder later target →
      Gives source site base { context with builder := later } →
      Ensures (next ()) { context with builder := later } post) :
    Ensures (isLive >>= fun live =>
      if live = true then build (Build.jump target) >>= next else next ()) context post := by
  refine afterLive (fun live => ?_) fun dead => ?_
  · obtain ⟨id, here⟩ := live
    rw [if_pos rfl]
    refine gives.close here fun later closes gives' => rest later ⟨closes.fit, closes.leads, ?_⟩ gives'
    intro id' here'
    cases here.symm.trans here'
    exact closes.toExits
  · rw [if_neg Bool.false_ne_true]
    refine rest context.builder ⟨gives.fit, .refl _, fun id here => ?_⟩ gives
    rw [dead] at here
    cases here

end Steps

/-! ### Runs -/

namespace Run

variable {run : Run} {site : Site} {base now middle later : Builder} {id : BlockId}
  {previous : Option BlockId} {state before : State} {value value' : Value} {prim prim' : Prim}
  {locals locals' : Locals} {outcome : Outcome}

theorem start_of_enters (enters : Enters base now later id) :
    run.start id previous state = run.spot later id previous state :=
  (spot_of_bare enters.bare).symm

/-- A part is run from the start of the block that it was lowered in. -/
theorem Simulates.entered {evaluation : Evaluation}
    (simulates : run.Simulates site middle later (fun _ => True) value prim evaluation)
    (enters : Enters base now middle id) (evaluated : evaluation locals = some (outcome, locals'))
    (holds : run.Holds site locals state) :
    run.Ends site middle (run.start id previous state) state later value prim (run.Holds site)
      (run.Holds site) outcome locals' := by
  rw [start_of_enters enters]
  exact simulates locals outcome locals' evaluated id previous state enters.here holds trivial

/-- Goes on with the value of a part. -/
theorem Ends.andThen {first : Evaluation} {next : Scalar → Evaluation} {point : Point}
    {done done' left : Locals → State → Prop}
    (part : ∀ outcome locals', first locals = some (outcome, locals') →
      run.Ends site now point before middle value prim done left outcome locals')
    (evaluated : first.andThen next locals = some (outcome, locals'))
    (rest : ∀ scalar between id previous state, scalar.prim = prim → prim ≠ .never →
      middle.here? = some id → run.Shows state value scalar → done between state →
      next scalar between = some (outcome, locals') →
      run.Ends site now (run.spot middle id previous state) state later value' prim' done' left
        outcome locals') :
    run.Ends site now point before later value' prim' done' left outcome locals' := by
  rcases Evaluation.andThen_eq_some evaluated with ⟨scalar, between, first, second⟩ | ⟨abrupt, first⟩
  · obtain ⟨typed, inhabited, id, here, previous, state, reaches, kept, shows, holds⟩ := part _ _ first
    have ends := rest scalar between id previous state typed inhabited here shows holds second
    exact ends.after (.refl site) (.refl _) (fun _ _ member => member) reaches kept
  · exact (part _ _ first).abrupt abrupt

end Run

end TreeLowering.Lowering
