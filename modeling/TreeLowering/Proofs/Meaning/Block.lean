/-
This file proves that blocks are lowered faithfully. Every statement may bind a name, so what is known
of the variables changes from statement to statement; what is known of those around the block does
not. A jump out of the block and its end both drop the names of the block.
-/

import TreeLowering.Proofs.Meaning.Binding

namespace TreeLowering.Lowering

open TreeLowering.Ir TreeLowering.Tree Builder

/-! ### Sites inside a block -/

/-- The site inside a new scope. -/
def Site.enter (site : Site) : Site :=
  { site with env := site.env.enterScope, prims := [] :: site.prims }

/-- The site around the innermost scope. -/
def Site.leave (site : Site) : Site :=
  { site with env := site.env.leaveScope, prims := site.prims.tail }

/-- The second site is further on in the same block. -/
structure Site.Further (site site' : Site) : Prop extends Site.Alike site site' where
  scopes : site'.env.scopes.tail = site.env.scopes.tail
  prims : site'.prims.tail = site.prims.tail

theorem Site.Further.leave {site site' : Site} (further : site.Further site') :
    site'.leave = site.leave := by
  obtain ⟨⟨frames, ret, leaves⟩, scopes, prims⟩ := further
  simp only [Site.leave, Env.leaveScope, frames, ret, leaves, scopes, prims]

namespace Run

variable {run : Run} {site site' : Site} {now middle later : Builder} {state before : State}
  {locals : Locals} {value value' : Value} {prim prim' : Prim} {outcome : Outcome} {point : Point}

theorem Holds.enter (holds : run.Holds site locals state) :
    run.Holds site.enter ([] :: locals) state :=
  ⟨holds.homes, holds.cells.enter, holds.typed.enter⟩

theorem Holds.leave (holds : run.Holds site locals state) :
    run.Holds site.leave locals.tail state :=
  ⟨holds.homes, holds.cells.leave, holds.typed.leave⟩

/-- The variables around the block hold their values. -/
def Outside (run : Run) (site : Site) (locals : Locals) (state : State) : Prop :=
  run.Holds site.leave locals.tail state

/-- The code between two states of the builder does what the evaluation says, and the variables
change from what `given` says to what `done` or `left` say. -/
def Follows (run : Run) (site : Site) (now later : Builder) (given : Locals → State → Prop)
    (value : Value) (prim : Prim) (done left : Locals → State → Prop) (evaluation : Evaluation) :
    Prop :=
  ∀ locals outcome locals', evaluation locals = some (outcome, locals') →
    ∀ id previous state, now.here? = some id → given locals state →
      run.Ends site now (run.spot now id previous state) state later value prim done left outcome
        locals'

theorem Ends.mono {done done' left left' : Locals → State → Prop}
    (ends : run.Ends site now point before later value prim done left outcome locals)
    (weaker : ∀ locals state, done locals state → done' locals state)
    (weaker' : ∀ locals state, left locals state → left' locals state) :
    run.Ends site now point before later value prim done' left' outcome locals := by
  cases outcome with
  | value scalar =>
    obtain ⟨typed, inhabited, block, here, comes⟩ := ends
    exact ⟨typed, inhabited, block, here, comes.mono fun state good => ⟨good.1, weaker _ _ good.2⟩⟩
  | jump jump => exact ⟨ends.1, fun id found => (ends.2 id found).mono (weaker' _)⟩
  | result scalar => exact ends

/-- A value has the type that is expected of it. -/
theorem Ends.expected {done left : Locals → State → Prop}
    (ends : run.Ends site now point before later value prim done left outcome locals)
    (same : prim ≠ .never → prim = prim') :
    run.Ends site now point before later value prim' done left outcome locals := by
  cases outcome with
  | value scalar =>
    obtain ⟨typed, inhabited, comes⟩ := ends
    obtain rfl := same inhabited
    exact ⟨typed, inhabited, comes⟩
  | jump jump => exact ends
  | result scalar => exact ends

/-- What is done inside a scope is done around it, without the names of the scope. -/
theorem Ends.leave
    (ends : run.Ends site.enter now point before later value prim (run.Outside site.enter)
      (run.Outside site.enter) outcome locals) :
    run.Ends site now point before later value prim (run.Holds site) (run.Holds site) outcome
      locals.tail := by
  have around : run.Ends site now point before later value prim (run.Outside site.enter)
      (run.Outside site.enter) outcome locals :=
    ends.after ⟨rfl, rfl, rfl⟩ (.refl _) (fun _ _ member => member) (reaches_refl _) (.refl _ _ _ _)
  cases outcome with
  | value scalar => exact around
  | jump jump => exact around
  | result scalar => exact around

/-- A part that binds no names follows its evaluation inside a block. -/
theorem Simulates.follows {evaluation : Evaluation}
    (simulates : run.Simulates site now later (fun _ => True) value prim evaluation) :
    run.Follows site now later (run.Holds site) value prim (run.Holds site) (run.Outside site)
      evaluation :=
  fun locals outcome locals' evaluated id previous state here holds =>
    (simulates locals outcome locals' evaluated id previous state here holds trivial).mono
      (fun _ _ holds => holds) fun _ _ holds => holds.leave

theorem Follows.andThen {first : Evaluation} {next : Scalar → Evaluation}
    {given done done' left : Locals → State → Prop}
    (part : run.Follows site now middle given value prim done left first)
    (alike : site.Alike site') (grown : now.body.Extends middle.body)
    (covered : ∀ slot ∈ now.body.slots, slot.name ∈ slotNames site'.env.scopes →
      slot.name ∈ slotNames site.env.scopes)
    (rest : ∀ scalar, scalar.prim = prim → prim ≠ .never → run.Follows site' middle later
      (fun locals state => done locals state ∧ run.Shows state value scalar) value' prim' done' left
      (next scalar)) :
    run.Follows site now later given value' prim' done' left (first.andThen next) := by
  intro locals outcome locals' evaluated id previous state here holds
  rcases Evaluation.andThen_eq_some evaluated with ⟨scalar, between, first, second⟩ | ⟨abrupt, first⟩
  · obtain ⟨typed, inhabited, id', here', previous', state', reaches, kept, shows, holds'⟩ :=
      part _ _ _ first id previous state here holds
    have ends := rest scalar typed inhabited _ _ _ second id' previous' state' here' ⟨holds', shows⟩
    exact ends.after alike grown covered reaches kept
  · exact (part _ _ _ first id previous state here holds).abrupt abrupt

theorem Follows.dead {first : Evaluation} {next : Scalar → Evaluation}
    {given done done' left : Locals → State → Prop}
    (part : run.Follows site now later given value prim done left first)
    (nowhere : later.here? = none) :
    run.Follows site now later given value' prim' done' left (first.andThen next) := by
  intro locals outcome locals' evaluated id previous state here holds
  rcases Evaluation.andThen_eq_some evaluated with ⟨scalar, between, first, second⟩ | ⟨abrupt, first⟩
  · obtain ⟨_, _, id', here', _⟩ := part _ _ _ first id previous state here holds
    rw [nowhere] at here'
    cases here'
  · exact (part _ _ _ first id previous state here holds).abrupt abrupt

end Run

/-! ### Let -/

/-- The site behind a statement. -/
def Site.after (site : Site) (after : Context) (prims : Variables) : Site :=
  { site with env := after.env, prims }

/-- What the lowering of a statement leaves behind. -/
structure Advances (source : Source) (site : Site) (now : Builder) (meaning : Nat → Evaluation)
    (prims : Variables) (diverges : Bool) (after : Context) : Prop where
  fit : after.builder.Fit
  leads : Leads now after.builder
  memo : after.memo.Sound source
  further : site.Further (site.after after prims)
  bound : (∃ id, after.builder.here? = some id) →
    Bound after.builder.body (site.after after prims)
  covered : ∀ slot ∈ now.body.slots, slot.name ∈ slotNames after.env.scopes →
    slot.name ∈ slotNames site.env.scopes
  runs : ∃ value prim, (diverges = true → prim = .never) ∧
    ∀ run : Run, after.builder.body.Extends run.function → ∀ fuel,
      run.Follows site now after.builder (run.Holds site) value prim
        (run.Holds (site.after after prims)) (run.Outside site) (meaning fuel)

section Block

variable {source : Source} {site : Site} {context after : Context} {walk : Walk} {name : Name}
  {prim : Prim} {value : Option Value} {binding : Binding} {now : Builder}

theorem Site.after_eq_bind (env : after.env = site.env.bind name binding) :
    site.after after (site.prims.bind name prim) = site.bind name binding prim := by
  rw [Site.after, env, Site.bind]

theorem Site.further_bind (site : Site) (name : Name) (binding : Binding) (prim : Prim) :
    site.Further (site.bind name binding prim) := by
  refine ⟨site.alike_bind name binding prim, ?_, Scopes.tail_bind ..⟩
  rw [Site.bind, Env.scopes_bind, Scopes.tail_bind]

/-- Binding a name declares the variable. -/
theorem Binds.follows {run : Run} {content : Option Scalar} {left : Locals → State → Prop}
    (binds : Binds source site now name prim value binding after)
    (grown : after.builder.body.Extends run.function) :
    run.Follows site now after.builder
      (fun locals state => run.Holds site locals state ∧ run.Offers state prim value content) .unit
      .unit (run.Holds (site.after after (site.prims.bind name prim))) left
      (.declare name content) := by
  intro locals outcome locals' evaluated id previous state here given
  cases evaluated
  obtain ⟨previous', state', reaches, kept, holds, carries⟩ :=
    binds.runs run grown locals content id previous state here given.1 given.2
  refine ⟨rfl, by decide, id, binds.here.trans here, previous', state', reaches, kept, ⟨rfl, rfl⟩, ?_⟩
  rw [Site.after_eq_bind binds.env]
  exact holds.bind carries given.2.hasPrim name

/-- Nothing was bound. -/
theorem Means.advances {operand : Value} {meaning : Nat → Evaluation} {diverges : Bool}
    (means : Means source site now meaning prim operand after) (bound : Bound now.body site)
    (never : diverges = true → prim = .never) :
    Advances source site now meaning site.prims diverges after := by
  have same : site.after after site.prims = site := by
    rw [Site.after, means.env]
  refine ⟨means.fit, means.leads, means.memo, ?_, fun _ => ?_, fun _ _ => ?_, operand, prim, never,
    fun run grown fuel => ?_⟩
  · rw [same]
    exact ⟨.refl site, rfl, rfl⟩
  · rw [same]
    exact bound.mono means.leads.grown
  · rw [means.env]
    exact id
  · rw [same]
    exact (means.runs run grown fuel).follows

theorem Binds.advances (binds : Binds source site now name prim none binding after)
    (bound : Bound now.body site) :
    Advances source site now (fun _ => .declare name none) (site.prims.bind name prim) false after := by
  have same := @Site.after_eq_bind site after name prim binding binds.env
  refine ⟨binds.fit, binds.leads, binds.memo, ?_, fun _ => ?_, binds.covered, .unit, .unit,
    fun never => (by cases never), fun run grown fuel => ?_⟩
  · rw [same]
    exact site.further_bind name binding prim
  · rw [same]
    exact binds.bound bound
  · intro locals outcome locals' evaluated id previous state here holds
    exact binds.follows grown locals outcome locals' evaluated id previous state here ⟨holds, trivial⟩

theorem ensures_slotType_prim {ty : TypeId} {init : Option ExprId}
    (typed : walk.program.bindingPrim? ty init = some prim) :
    Ensures (slotType walk ty init) context fun ty after =>
      walk.program.prim? ty = some prim ∧ after = context := by
  unfold Program.bindingPrim? at typed
  unfold slotType
  split_ifs at typed ⊢ with inferred
  · obtain ⟨expr, rfl, carries⟩ := Option.bind_eq_some_iff.1 typed
    obtain ⟨node, found, carries⟩ := Option.bind_eq_some_iff.1 carries
    dsimp only
    rw [Walk.typeOf, Walk.node, found]
    exact ⟨carries, rfl⟩
  · exact ⟨typed, rfl⟩

theorem Stands.bindSlot {ty : TypeId} {init : Option ExprId}
    (stands : Stands walk.toSource site context)
    (typed : walk.program.bindingPrim? ty init = some prim)
    (known : ∀ operand, value = some operand → Known context.builder.body operand)
    (name : Name) (mutable : Bool) :
    Ensures (bindSlot walk name mutable ty init value) context fun _ after =>
      ∃ binding, Binds walk.toSource site context.builder name prim value binding after := by
  unfold Lowering.bindSlot
  rw [ensures_bind]
  refine (ensures_slotType_prim typed).mono fun slotTy start found => ?_
  obtain ⟨typed, rfl⟩ := found
  rw [ensures_bind]
  refine (ensures_lowerType_prim stands.memo typed).mono fun mapped second lowered => ?_
  obtain ⟨rfl, memo, same⟩ := lowered
  have builder : second.builder = start.builder := by rw [same]
  have stands₂ : Stands walk.toSource site second := by
    rw [same]
    exact ⟨stands.fit, stands.live, stands.env, stands.bound, memo⟩
  rw [← builder] at known ⊢
  obtain ⟨id, here⟩ := stands₂.live
  rw [ensures_bind, ensures_build]
  refine stands₂.fit.reserve.mono fun address third reserved => ?_
  obtain ⟨slot, rfl, reserves⟩ := reserved
  cases value with
  | none => exact ⟨_, stands₂.bindEmpty reserves name _⟩
  | some operand =>
    obtain ⟨_, scalar⟩ := (known operand rfl).scalar
    dsimp only
    rw [ensures_bind, ensures_build]
    refine (reserves.fit.store (reserves.here.trans here) (by rw [scalar]; rfl)).mono
      fun _ fourth stored => ?_
    obtain ⟨result, emits⟩ := stored
    exact ⟨_, stands₂.bindStored here reserves emits name _⟩

theorem Stands.bindValue {operand : Value} (stands : Stands source site context)
    (known : Known context.builder.body operand) (name : Name) (prim : Prim) :
    Ensures (bindValue name operand) context fun _ after =>
      ∃ binding, Binds source site context.builder name prim (some operand) binding after := by
  unfold Lowering.bindValue
  rw [ensures_bind, ensures_build]
  refine (stands.fit.pin operand).mono fun _ later stays => ?_
  exact ⟨.value operand, stands.bindOperand stays known (fun _ known => known) rfl
    fun _ _ scalar shows => ⟨scalar, rfl, shows⟩⟩

theorem Stands.lowerLet {depth : Nat} {init : Option ExprId} {ty : TypeId} {span : Span}
    {mutable diverges : Bool} {prims : Variables} (stands : Stands walk.toSource site context)
    (faithful : walk.Faithful)
    (checked : walk.program.checkStmt (walk.program.wellTyped site.ret depth) site.leaves site.prims
      (.bind (.ident name mutable) ty init span) = some (prims, diverges)) :
    Ensures (lowerLet walk name mutable ty init) context fun _ after =>
      Advances walk.toSource site context.builder (fun fuel => evaluateStmt (walk.program.evaluate fuel)
        (.bind (.ident name mutable) ty init span)) prims diverges after := by
  cases init with
  | none =>
    obtain ⟨prim, typed, same⟩ := Option.map_eq_some_iff.1 checked
    cases same
    have unknown : ∀ operand, (none : Option Value) = some operand →
        Known context.builder.body operand := fun _ some => by cases some
    refine (stands.bindSlot typed unknown name mutable).mono fun _ after bound => ?_
    obtain ⟨binding, binds⟩ := bound
    exact binds.advances stands.bound
  | some init =>
    obtain ⟨prim, typed, checks, suits, rfl, rfl⟩ := Program.checkStmt_init checked
    obtain ⟨_, _, carried, _, _, carries, _⟩ := Program.wellTyped_cases checks
    have never : ∀ prim', (walk.program.diverges init = true →
        (if walk.program.diverges init = true then Prim.never else prim') = .never) :=
      fun prim' diverges => if_pos diverges
    refine Stands.thenLive (faithful.expr stands checks carries) (fun value after means nowhere => ?_)
      fun value second means live => ?_
    · have env := means.env
      refine ⟨means.fit, means.leads, means.memo, ?_, fun live => ?_, fun slot _ => ?_, .unit, _,
        never .unit, fun run grown fuel => (means.runs run grown fuel).follows.dead nowhere⟩
      · refine ⟨⟨?_, rfl, rfl⟩, ?_, Scopes.tail_bind ..⟩ <;> rw [Site.after, env]
      · rw [nowhere] at live
        obtain ⟨_, here⟩ := live
        cases here
      · rw [env]
        exact id
    · have stands₂ := means.toGives.stands stands.bound live
      have binding : Ensures (if mutable || walk.addressTaken.contains name then
          Lowering.bindSlot walk name mutable ty (some init) (some value) else
          Lowering.bindValue name value) second fun _ after => ∃ binding,
            Binds walk.toSource site second.builder name prim (some value) binding after := by
        split_ifs
        · exact stands₂.bindSlot typed (fun _ same => by cases same; exact means.known) name mutable
        · exact stands₂.bindValue means.known name prim
      refine binding.mono fun _ after bound => ?_
      obtain ⟨binding, binds⟩ := bound
      have same := @Site.after_eq_bind site after name prim binding binds.env
      refine ⟨binds.fit, means.leads.trans binds.leads, binds.memo, ?_, fun _ => ?_,
        fun slot member => binds.covered slot (means.leads.grown.slots slot member), .unit, _,
        never .unit, fun run grown fuel => ?_⟩
      · rw [same]
        exact site.further_bind name binding prim
      · rw [same]
        exact binds.bound stands₂.bound
      · refine (means.runs run (binds.leads.grown.trans grown) fuel).follows.andThen (.refl site)
          means.leads.grown (fun _ _ => id) fun scalar shown inhabited => ?_
        rw [if_neg (Program.not_diverges carries inhabited)]
        obtain rfl := Program.prim_of_suits suits carries inhabited
        intro locals outcome locals' evaluated id previous state here given
        exact binds.follows grown locals outcome locals' evaluated id previous state here
          ⟨given.1, given.2, shown, inhabited⟩

/-! ### Statements -/

theorem Stands.lowerStmt {depth : Nat} {stmt : Stmt} {diverges : Bool} {prims : Variables}
    (stands : Stands walk.toSource site context) (faithful : walk.Faithful)
    (checked : walk.program.checkStmt (walk.program.wellTyped site.ret depth) site.leaves site.prims
      stmt = some (prims, diverges)) :
    Ensures (lowerStmt walk stmt) context fun _ after => Advances walk.toSource site context.builder
      (fun fuel => evaluateStmt (walk.program.evaluate fuel) stmt) prims diverges after := by
  have discarded : ∀ value, (if walk.program.wellTyped site.ret depth site.leaves site.prims value then
      some (site.prims, walk.program.diverges value) else none) = some (prims, diverges) →
      Ensures (discard (walk.expr value)) context fun _ after => Advances walk.toSource site
        context.builder (fun fuel => walk.program.evaluate fuel value) prims diverges after := by
    intro value checked
    split_ifs at checked with checks
    cases checked
    obtain ⟨_, _, carried, _, _, carries, _⟩ := Program.wellTyped_cases checks
    rw [ensures_discard]
    refine (faithful.expr stands checks carries).mono fun operand after means => ?_
    refine means.advances stands.bound fun never => ?_
    rw [Program.diverges, carries, beq_iff_eq] at never
    exact Option.some.inj never
  cases stmt with
  | bind pattern ty init span =>
    cases pattern with
    | ident name mutable => exact stands.lowerLet faithful checked
    | wildcard =>
      cases init with
      | none =>
        cases checked
        exact stands.unit.advances stands.bound fun never => by cases never
      | some init => exact discarded init checked
    | tuple => cases checked
  | expr value => exact discarded value checked
  | semi value => exact discarded value checked
  | item span => cases checked

/-- What the lowering of the rest of a block leaves behind. -/
structure Concludes (source : Source) (site : Site) (now : Builder) (meaning : Nat → Evaluation)
    (prim : Prim) (value : Value) (after : Context) : Prop where
  fit : after.builder.Fit
  leads : Leads now after.builder
  memo : after.memo.Sound source
  env : after.env.leaveScope = site.env.leaveScope
  known : Known after.builder.body value
  runs : ∀ run : Run, after.builder.body.Extends run.function → ∀ fuel,
    run.Follows site now after.builder (run.Holds site) value prim (run.Outside site)
      (run.Outside site) (meaning fuel)

theorem Means.concludes {operand : Value} {meaning : Nat → Evaluation}
    (means : Means source site now meaning prim operand after) :
    Concludes source site now meaning prim operand after := by
  refine ⟨means.fit, means.leads, means.memo, by rw [means.env], means.known, fun run grown fuel => ?_⟩
  intro locals outcome locals' evaluated id previous state here holds
  exact (means.runs run grown fuel locals outcome locals' evaluated id previous state here holds
    trivial).mono (fun _ _ holds => holds.leave) fun _ _ holds => holds.leave

/-- Statements are followed one by one; behind one that ends with no value nothing is run. -/
theorem Stands.lowerStmts {depth : Nat} {stmts : List Stmt} {tail : Option ExprId}
    {wanted : Option Prim} (stands : Stands walk.toSource site context) (faithful : walk.Faithful)
    (checked : walk.program.checkStmts (walk.program.wellTyped site.ret depth) site.leaves site.prims
      stmts tail wanted = true) :
    Ensures (lowerStmts walk stmts tail) context fun value after =>
      ∃ prim, (∀ expected, wanted = some expected → accepts expected prim = true) ∧
        Concludes walk.toSource site context.builder
          (fun fuel => evaluateStmts (walk.program.evaluate fuel) stmts tail) prim value after := by
  induction stmts generalizing site context wanted with
  | nil =>
    cases tail with
    | none =>
      refine ⟨.unit, fun expected same => ?_, stands.unit.concludes⟩
      subst same
      rw [Program.checkStmts, Option.all_some, beq_iff_eq] at checked
      rw [checked]
      rfl
    | some tail =>
      rw [Program.checkStmts, Bool.and_eq_true] at checked
      obtain ⟨checks, suits⟩ := checked
      obtain ⟨_, _, carried, _, _, carries, _⟩ := Program.wellTyped_cases checks
      refine (faithful.expr stands checks carries).mono fun value after means => ?_
      refine ⟨carried, fun expected same => ?_, means.concludes⟩
      subst same
      rwa [Option.all_some, Program.suits, carries, Option.any_some] at suits
  | cons stmt rest inductionHypothesis =>
    unfold Program.checkStmts at checked
    split at checked
    · cases checked
    next prims diverges checks =>
    refine Stands.thenLive (stands.lowerStmt faithful checks) (fun _ after advances nowhere => ?_)
      fun _ second advances live => ?_
    · obtain ⟨value, prim, _, runs⟩ := advances.runs
      have further := advances.further
      refine ⟨.never, fun expected _ => Bool.or_true _, advances.fit, advances.leads, advances.memo,
        congrArg Site.env further.leave, .of_constant rfl rfl, fun run grown fuel =>
          (runs run grown fuel).dead nowhere⟩
    · obtain ⟨value, prim, never, runs⟩ := advances.runs
      have further := advances.further
      have stands₂ : Stands walk.toSource (site.after second prims) second :=
        ⟨advances.fit, live, rfl, advances.bound live, advances.memo⟩
      refine (inductionHypothesis stands₂ checked).mono fun result after concluded => ?_
      obtain ⟨prim', accepted, concludes⟩ := concluded
      have outside : ∀ run : Run, run.Outside (site.after second prims) = run.Outside site := by
        intro run
        unfold Run.Outside
        rw [further.leave]
      refine ⟨if diverges then .never else prim', fun expected same => ?_, concludes.fit,
        advances.leads.trans concludes.leads, concludes.memo,
        concludes.env.trans (congrArg Site.env further.leave), concludes.known,
        fun run grown fuel => ?_⟩
      · split_ifs with diverging
        · exact Bool.or_true _
        · rw [if_neg diverging] at accepted
          exact accepted expected same
      · refine (runs run (concludes.leads.grown.trans grown) fuel).andThen further.toAlike
          advances.leads.grown advances.covered fun scalar same inhabited => ?_
        rw [if_neg fun diverging => inhabited (never diverging)]
        have follows := concludes.runs run grown fuel
        rw [outside] at follows
        intro locals outcome locals' evaluated id previous state here given
        exact follows locals outcome locals' evaluated id previous state here given.1

/-! ### Blocks -/

theorem Stands.enter (stands : Stands source site context) (scope : ScopeId) :
    Stands source site.enter (context.enterScope scope) := by
  refine ⟨stands.fit, stands.live, ?_, ⟨stands.bound.entries.enter, stands.bound.distinct,
    stands.bound.returns, stands.bound.inner⟩, stands.memo⟩
  rw [Context.enterScope, stands.env, Site.enter]

theorem Stands.lowerBlock {depth : Nat} {stmts : List Stmt} {tail : Option ExprId}
    (stands : Stands walk.toSource site context) (faithful : walk.Faithful) (scope : ScopeId)
    (checked : walk.program.checkStmts (walk.program.wellTyped site.ret depth) site.leaves
      ([] :: site.prims) stmts tail (some prim) = true) :
    Ensures (lowerBlock walk scope stmts tail) context (Means walk.toSource site context.builder
      (fun fuel => .inScope (evaluateStmts (walk.program.evaluate fuel) stmts tail)) prim) := by
  unfold Lowering.lowerBlock
  rw [ensures_inScope]
  refine ((stands.enter scope).lowerStmts faithful checked).mono fun value after concluded => ?_
  obtain ⟨prim', accepted, concludes⟩ := concluded
  refine ⟨⟨concludes.fit, concludes.leads, concludes.env, concludes.memo⟩, concludes.known,
    fun run grown fuel locals outcome locals' evaluated id previous state here holds _ => ?_⟩
  obtain ⟨⟨ended, inner⟩, evaluated', same⟩ := Option.map_eq_some_iff.1 evaluated
  cases same
  refine ((concludes.runs run grown fuel _ _ _ evaluated' id previous state here
    holds.enter).leave).expected fun inhabited => ?_
  have accepts := accepted prim rfl
  rw [Tree.accepts, Bool.or_eq_true] at accepts
  exact eq_of_beq (accepts.resolve_right fun never => inhabited (eq_of_beq never))

end Block

end TreeLowering.Lowering
