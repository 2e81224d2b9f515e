/-
This file proves that conditionals are lowered faithfully. Where the ways part, control goes to the arm
that the test chooses, through the code of the arm, and on to where the arms meet. The result is the
value of the only arm that gets there, or of the arm that control came from.
-/

import TreeLowering.Proofs.Meaning.ShortCircuit

namespace TreeLowering

open TreeLowering.Ir TreeLowering.Tree

theorem Ir.Prim.eq_unit {prim : Prim} (void : prim.isVoid = true) (inhabited : prim ≠ .never) :
    prim = .unit := by
  cases prim with
  | unit => rfl
  | never => exact absurd rfl inhabited
  | _ => cases void

theorem Tree.Scalar.eq_unit (scalar : Scalar) (same : scalar.prim = .unit) : scalar = .unit := by
  obtain ⟨prim, bits⟩ := scalar
  subst same
  exact congrArg (Scalar.mk .unit)
    (BitVec.eq_of_getElem_eq fun _ small => absurd small (Nat.not_lt_zero _))

end TreeLowering

namespace TreeLowering.Lowering

open TreeLowering.Ir TreeLowering.Tree Builder

section Conditional

variable {source : Source} {site : Site} {base : Builder} {context : Context} {walk : Walk}
  {prim carried : Prim} {func : FuncId} {depth : Nat} {test : Value}

/-! ### Two ways -/

/-- A branch goes the way that its condition chooses. -/
theorem Run.ends_choose {run : Run} {now forked later : Builder} {id thenBlock elseBlock : BlockId}
    {previous : Option BlockId} {state : State} {truth : Scalar} {yes no : Evaluation}
    {locals locals' : Locals} {outcome : Outcome} {value : Value} {done left : Locals → State → Prop}
    (forks : Forks now forked id (.branch test thenBlock elseBlock) thenBlock elseBlock)
    (grown : forked.body.Extends run.function) (shows : run.Shows state test truth)
    (evaluated : Evaluation.choose truth yes no locals = some (outcome, locals'))
    (first : yes locals = some (outcome, locals') →
      run.Ends site base (run.start thenBlock (some id) state) state later value prim done left
        outcome locals')
    (second : no locals = some (outcome, locals') →
      run.Ends site base (run.start elseBlock (some id) state) state later value prim done left
        outcome locals') :
    run.Ends site base (run.spot now id previous state) state later value prim done left outcome
      locals' := by
  obtain ⟨chosen, rfl, decided⟩ := Evaluation.choose_eq_some evaluated
  refine Ends.reached ?_
    (reaches_branch forks.toExits grown forks.first.inner forks.second.inner shows)
  cases chosen with
  | true => exact first decided
  | false => exact second decided

/-! ### One arm -/

/-- Where a construct without a result ends, its value is unit. -/
theorem Run.ends_unit {run : Run} {now later : Builder} {id : BlockId} {previous : Option BlockId}
    {state : State} {locals : Locals} {left : Locals → State → Prop}
    (enters : Enters base now later id) (holds : run.Holds site locals state) :
    run.Ends site base (run.start id previous state) state later .unit .unit (run.Holds site) left
      (.value .unit) locals := by
  rw [start_of_enters enters]
  exact ⟨rfl, by decide, id, enters.here, previous, state, reaches_refl _, .refl _ _ _ _, ⟨rfl, rfl⟩,
    holds⟩

theorem Stands.lowerWhen {arm : ExprId} (stands : Stands walk.toSource site context)
    (faithful : walk.Faithful) (current : context.builder.current = some func)
    (typed : walk.program.wellTyped site.ret depth site.leaves site.prims arm = true)
    (unit : carried ≠ .never → prim = .unit) :
    Ensures (build (Build.newBlock "then") >>= fun thenBlock =>
      lowerWhen walk test func thenBlock arm) context
      (MeansFrom walk.toSource site context.builder test carried (fun fuel truth =>
        .choose truth ((walk.program.evaluate fuel arm).andThen fun _ => .ends (.value .unit))
          (.ends (.value .unit))) prim) := by
  obtain ⟨_, _, armPrim, _, _, carries, _⟩ := Program.wellTyped_cases typed
  obtain ⟨id, here⟩ := stands.live
  unfold Lowering.lowerWhen
  refine stands.fork here fun thenBlock merge second forks gives₂ => ?_
  refine gives₂.enter current forks.first fun third enters gives₃ => ?_
  have stands₃ := gives₃.stands stands.bound ⟨thenBlock, enters.here⟩
  rw [ensures_bind]
  refine (faithful.expr stands₃ typed carries).mono fun _ fourth means => ?_
  refine (gives₃.trans means.toGives).pass fun fifth passes gives₅ => ?_
  have merge₅ := ((forks.second.beside enters.toMoves forks.differs.symm).still means.leads).still
    passes.leads
  refine gives₅.enter current merge₅ fun last enters' gives₆ => ?_
  refine ⟨gives₆, .of_constant rfl rfl, fun run grown fuel truth same inhabited => ?_⟩
  obtain rfl := unit inhabited
  have grown₅ : fifth.body.Extends run.function := enters'.body ▸ grown
  have grown₄ := passes.leads.grown.trans grown₅
  have grown₂ : second.body.Extends run.function := enters.body ▸ means.leads.grown.trans grown₄
  intro locals outcome locals' evaluated id' previous state here' holds shows
  cases here.symm.trans here'
  refine Run.ends_choose forks grown₂ shows evaluated (fun decided => ?_) fun decided => ?_
  · refine Run.Ends.andThen (fun outcome between evaluated => ((means.runs run grown₄ fuel).entered
      enters evaluated holds).rebase enters.leads.grown) decided
      fun scalar between id₄ previous₄ state₄ _ _ here₄ _ holds₄ ended => ?_
    obtain ⟨rfl, rfl⟩ := Evaluation.ends_eq_some ended
    exact (Run.ends_unit enters' holds₄).reached
      (Run.reaches_jump (passes.exits id₄ here₄) grown₅ merge₅.inner)
  · obtain ⟨rfl, rfl⟩ := Evaluation.ends_eq_some decided
    exact Run.ends_unit enters' holds

/-! ### Arms -/

/-- An arm that starts in a block of the construct ends in one. -/
theorem Builder.Enters.own {before start later : Builder} {block id : BlockId}
    (enters : Enters base before start block) (new : ¬ base.Has block) (leads : Leads start later)
    (here : later.here? = some id) : ¬ base.Has id := by
  rcases leads.here id here with same | late
  · cases enters.here.symm.trans same
    exact new
  · exact fun found => late (enters.leads.has found)

/-- An arm is lowered in the block that was prepared for it. -/
theorem Gives.arm {β : Type} {block : BlockId} {arm : ExprId}
    {next : Option (Value × BlockId) → LowerM β} {post : β → Context → Prop}
    (gives : Gives walk.toSource site base context) (faithful : walk.Faithful)
    (current : base.current = some func) (bound : Bound base.body site)
    (prepared : Prepared base context.builder block)
    (typed : walk.program.wellTyped site.ret depth site.leaves site.prims arm = true)
    (carries : walk.program.typeOf? arm = some prim)
    (rest : ∀ value start after, Enters base context.builder start block →
      Means walk.toSource site start (fun fuel => walk.program.evaluate fuel arm) prim value after →
      Gives walk.toSource site base after →
      Ensures (next (after.builder.here?.map fun id => (value, id))) after post) :
    Ensures (lowerArm walk func block arm >>= next) context post := by
  unfold lowerArm
  rw [bind_assoc]
  refine gives.enter current prepared fun start enters gives' => ?_
  rw [bind_assoc, ensures_bind]
  refine (faithful.expr (gives'.stands bound ⟨block, enters.here⟩) typed carries).mono
    fun value after means => ?_
  rw [bind_assoc, ensures_bind, ensures_get, pure_bind]
  have same : (after.builder.cursor.map fun cursor => (value, cursor.block)) =
      after.builder.here?.map fun id => (value, id) := by
    rw [here?, Option.map_map]
    rfl
  rw [same]
  exact rest value start after enters means (gives'.trans means.toGives)

/-- All arms that get to their end jump to the block where they meet. -/
theorem Gives.jumps {β : Type} {merge : BlockId} {arms : List (Value × BlockId)}
    {next : Unit → LowerM β} {post : β → Context → Prop} (gives : Gives source site base context)
    (current : base.current = some func) (prepared : Prepared base context.builder merge)
    (opened : ∀ arm ∈ arms, context.builder.Open arm.2 ∧ ¬ base.Has arm.2 ∧ arm.2 ≠ merge)
    (once : (arms.map Prod.snd).Nodup)
    (rest : ∀ after, Gives source site base after → Prepared base after.builder merge →
      context.builder.body.Extends after.builder.body →
      (∀ arm ∈ arms, Exits context.builder after.builder arm.2 (.jump merge)) →
      Ensures (next ()) after post) :
    Ensures (arms.forM (jumpFrom func merge) >>= next) context post := by
  induction arms generalizing context with
  | nil => exact rest context gives prepared (.refl _) (List.forall_mem_nil _)
  | cons arm arms inductionHypothesis =>
    rw [List.map_cons, List.nodup_cons] at once
    rw [show (arm :: arms).forM (jumpFrom func merge) =
      jumpFrom func merge arm >>= fun _ => arms.forM (jumpFrom func merge) from rfl, bind_assoc]
    obtain ⟨opened₁, new, differs⟩ := opened arm List.mem_cons_self
    unfold jumpFrom
    rw [bind_assoc, ensures_bind, ensures_build]
    refine (gives.fit.positionAt (gives.leads.current.trans current) opened₁).mono
      fun _ second moves => ?_
    have gives₂ := gives.built moves.fit (gives.leads.moved moves new)
    refine gives₂.close moves.here fun third closes gives₃ => ?_
    have waits : ∀ other ∈ arms, second.Waits other.2 := fun other member =>
      moves.waits (opened other (List.mem_cons_of_mem _ member)).1 fun same =>
        once.1 (same ▸ List.mem_map_of_mem member)
    refine inductionHypothesis gives₃ ((prepared.beside moves differs.symm).still closes.leads)
      (fun other member => ?_) once.2 fun after gives' prepared' grown exits => ?_
    · obtain ⟨_, new', differs'⟩ := opened other (List.mem_cons_of_mem _ member)
      exact ⟨((waits other member).still closes.leads).opened, new', differs'⟩
    · have upTo : context.builder.body.Extends third.body := moves.body ▸ closes.leads.grown
      refine rest after gives' prepared' (upTo.trans grown) (List.forall_mem_cons.2
        ⟨?_, fun other member => ⟨?_, (exits other member).exit⟩⟩)
      · obtain ⟨exit, same⟩ := grown.closed _ _ closes.exit
        exact ⟨by rw [same, closes.plain, moves.body], exit⟩
      · rw [(exits other member).plain]
        exact ((waits other member).plain closes.leads).trans (by rw [moves.body])

/-- What joining arms leaves behind: a value that shows what was shown by the arm that control came
from. A run of an arm starts at the point that `begins` tells. -/
structure Joins (source : Source) (site : Site) (base now : Builder) (arms : List (Value × BlockId))
    (begins : Run → BlockId → Option BlockId → State → Point) (prim : Prim) (value : Value)
    (after : Context) : Prop extends Gives source site base after where
  known : Known after.builder.body value
  grown : now.body.Extends after.builder.body
  runs : ∀ run : Run, after.builder.body.Extends run.function → ∀ arm ∈ arms,
    ∀ locals scalar previous state, scalar.prim = prim → prim ≠ .never → run.Holds site locals state →
      run.Shows state arm.1 scalar → run.Ends site base (begins run arm.2 previous state) state
        after.builder value prim (run.Holds site) (run.Holds site) (.value scalar) locals

/-- A value that is there is no placeholder. -/
theorem Run.Shows.retype {run : Run} {state : State} {value : Value} {scalar : Scalar}
    (shows : run.Shows state value scalar) (ty : Ty) : retype ty value = value := by
  cases value with
  | undef ty' => cases shows.datum
  | _ => rfl

theorem Known.retype {body : Function} {value : Value} (known : Known body value) :
    Known body (retype (.prim prim) value) := by
  unfold Lowering.retype
  split_ifs
  · exact .of_constant rfl rfl
  · exact known

theorem find?_incoming {arms : List (Value × BlockId)} (once : (arms.map Prod.snd).Nodup) {ty : Ty}
    {arm : Value × BlockId} (member : arm ∈ arms) :
    (arms.map fun arm => (retype ty arm.1, arm.2)).find? (fun found => found.2 = arm.2) =
      some (retype ty arm.1, arm.2) := by
  induction arms with
  | nil => cases member
  | cons other arms inductionHypothesis =>
    rw [List.map_cons, List.nodup_cons] at once
    rcases List.mem_cons.1 member with rfl | inside
    · rw [List.map_cons, List.find?_cons_of_pos (by simp)]
    · have differs : other.2 ≠ arm.2 := fun same => once.1 (same ▸ List.mem_map_of_mem inside)
      rw [List.map_cons, List.find?_cons_of_neg (by simpa using differs)]
      exact inductionHypothesis once.2 inside

/-- Where the arms meet, the value is the only one that arrives, or chosen by where control came
from. -/
theorem Gives.mergeValue {merge : BlockId} {before : Builder} {arms : List (Value × BlockId)}
    (gives : Gives source site base context) (enters : Enters base before context.builder merge)
    (bound : Bound base.body site) (once : (arms.map Prod.snd).Nodup)
    (known : ∀ arm ∈ arms, Known context.builder.body arm.1) :
    Ensures (mergeValue (.prim prim) arms) context (Joins source site base context.builder arms
      (fun run id _ state => run.start merge (some id) state) prim) := by
  unfold Lowering.mergeValue
  split
  · next value id single =>
    obtain ⟨arm, rfl, equal⟩ := List.map_eq_singleton_iff.1 single
    cases equal
    refine ⟨gives, (known arm List.mem_cons_self).retype, .refl _, fun run grown other member
      locals scalar previous state same inhabited holds shows => ?_⟩
    obtain rfl := List.mem_singleton.1 member
    rw [Run.start_of_enters enters, shows.retype]
    exact ⟨same, inhabited, merge, enters.here, some other.2, state, Run.reaches_refl _,
      .refl _ _ _ _, shows, holds⟩
  · unfold Build.phi
    rw [ensures_build]
    refine (gives.fit.emit enters.here rfl).mono fun value later emitted => ?_
    obtain ⟨name, rfl, emits⟩ := emitted
    refine ⟨⟨emits.fit, gives.leads.trans emits.leads, gives.env, gives.memo⟩,
      ⟨⟨prim, rfl⟩, fun _ named => by cases named; exact emits.sets⟩, emits.leads.grown,
      fun run grown arm member locals scalar previous state same inhabited holds shows => ?_⟩
    rw [Run.start_of_enters enters]
    have computed : run.setting.compute? (some arm.2) (.prim prim) (.phi (arms.map fun arm =>
        (Lowering.retype (.prim prim) arm.1, arm.2))) state = some (scalar.datum, state.store) := by
      simp only [Setting.compute?, Option.bind_eq_bind, Option.bind_some, find?_incoming once member,
        shows.retype, shows.datum, Option.map_some]
    exact (Run.ends_emit emits grown (bound.mono gives.leads.grown) holds computed (by rw [same]) same
      inhabited).rebase gives.leads.grown

/-- The arms that get to their end meet, if there are any. -/
theorem Gives.joinArms {arms : List (Value × BlockId)} {ty : TypeId}
    (gives : Gives walk.toSource site base context) (current : base.current = some func)
    (bound : Bound base.body site) (typed : walk.program.prim? ty = some prim)
    (opened : ∀ arm ∈ arms, context.builder.Open arm.2 ∧ ¬ base.Has arm.2)
    (once : (arms.map Prod.snd).Nodup)
    (known : ∀ arm ∈ arms, Known context.builder.body arm.1) :
    Ensures (joinArms walk func ty arms) context (Joins walk.toSource site base context.builder arms
      (fun run id previous state => run.spot context.builder id previous state) prim) := by
  unfold Lowering.joinArms
  cases arms with
  | nil =>
    exact ⟨gives, .of_constant rfl rfl, .refl _, fun _ _ arm member => (by cases member)⟩
  | cons arm arms =>
    rw [if_neg (by simp)]
    refine gives.withBlock fun merge second opens gives₂ => ?_
    refine gives₂.jumps current (opens.prepared gives.leads) (fun other member => ?_) once
      fun third gives₃ prepared grown₃ exits => ?_
    · obtain ⟨open₁, new⟩ := opened other member
      refine ⟨?_, new, fun same => opens.new (same ▸ open₁.1)⟩
      by_cases here : context.builder.here? = some other.2
      · exact opens.fit.opened (opens.here.trans here)
      · exact (Waits.still ⟨open₁, here⟩ opens.leads).opened
    · refine gives₃.enter current prepared fun fourth enters gives₄ => ?_
      rw [ensures_bind]
      refine (ensures_lowerType_prim gives₄.memo typed).mono fun mapped fifth lowered => ?_
      obtain ⟨rfl, memo, same⟩ := lowered
      have builder : fifth.builder = fourth := by rw [same]
      have gives₅ : Gives walk.toSource site base fifth := by
        rw [same]
        exact ⟨gives₄.fit, gives₄.leads, gives₄.env, memo⟩
      have upTo : context.builder.body.Extends fourth.body :=
        enters.body ▸ opens.leads.grown.trans grown₃
      -- an arm that gets to its end comes to where the arms meet
      have meets : ∀ run : Run, fourth.body.Extends run.function → ∀ other ∈ arm :: arms,
          ∀ previous state, run.Reaches (run.spot context.builder other.2 previous state)
            (run.start merge (some other.2) state) := by
        intro run grown other member previous state
        rw [← Run.spot_of_plain (opens.plain other.2)]
        exact Run.reaches_jump (exits other member) (enters.body ▸ grown) prepared.inner
      split_ifs with void
      · refine ⟨gives₅, .of_constant rfl rfl, builder ▸ upTo, fun run grown other member locals scalar
          previous state same inhabited holds shows => ?_⟩
        obtain rfl := Prim.eq_unit void inhabited
        obtain rfl := scalar.eq_unit same
        rw [builder] at grown ⊢
        exact (Run.ends_unit enters holds).reached (meets run grown other member previous state)
      · rw [← builder] at enters
        refine (gives₅.mergeValue enters bound once fun other member => ?_).mono
          fun value after joins => ?_
        · exact (known other member).mono (builder ▸ upTo)
        · refine ⟨joins.toGives, joins.known, (builder ▸ upTo).trans joins.grown, fun run grown other
            member locals scalar previous state same inhabited holds shows => ?_⟩
          exact (joins.runs run grown other member locals scalar previous state same inhabited holds
            shows).reached (meets run (builder ▸ joins.grown.trans grown) other member previous state)

/-- The arms that are joined are those of two that get to their end. -/
theorem mem_arms {first other : Value} {here here' : Option BlockId} {arm : Value × BlockId}
    (member : arm ∈ (here.map fun id => (first, id)).toList ++
      (here'.map fun id => (other, id)).toList) :
    (here = some arm.2 ∧ arm.1 = first) ∨ (here' = some arm.2 ∧ arm.1 = other) := by
  rcases List.mem_append.1 member with inside | inside
  · obtain ⟨id, here, rfl⟩ := Option.map_eq_some_iff.1 (Option.mem_toList.1 inside)
    exact Or.inl ⟨here, rfl⟩
  · obtain ⟨id, here', rfl⟩ := Option.map_eq_some_iff.1 (Option.mem_toList.1 inside)
    exact Or.inr ⟨here', rfl⟩

theorem nodup_arms {first other : Value} {here here' : Option BlockId}
    (apart : ∀ id, here = some id → here' ≠ some id) :
    (((here.map fun id => (first, id)).toList ++
      (here'.map fun id => (other, id)).toList).map Prod.snd).Nodup := by
  cases here with
  | none => cases here' <;> simp
  | some id =>
    have differs := apart id rfl
    cases here' with
    | none => simp
    | some id' => simpa using fun same => differs (congrArg some same.symm)

/-- An arm is run from its block on, and joined where it gets to its end. -/
theorem Joins.arm {run : Run} {now forked start middle : Builder} {arms : List (Value × BlockId)}
    {block : BlockId} {result value : Value} {armPrim : Prim} {evaluation : Evaluation}
    {locals locals' : Locals} {outcome : Outcome} {previous : Option BlockId} {state : State}
    (joins : Joins source site base now arms
      (fun run id previous state => run.spot now id previous state) prim value context)
    (grown : context.builder.body.Extends run.function) (enters : Enters base forked start block)
    (simulates : run.Simulates site start middle (fun _ => True) result armPrim evaluation)
    (suits : armPrim ≠ .never → armPrim = prim)
    (arrives : ∀ id, middle.here? = some id →
      (result, id) ∈ arms ∧ now.body.plain id = middle.body.plain id)
    (evaluated : evaluation locals = some (outcome, locals')) (holds : run.Holds site locals state) :
    run.Ends site base (run.start block previous state) state context.builder value prim
      (run.Holds site) (run.Holds site) outcome locals' := by
  refine ((simulates.entered enters evaluated holds).rebase enters.leads.grown).onward
    fun scalar id previous' state' ended same inhabited here shows holds' => ?_
  subst ended
  obtain rfl := suits inhabited
  obtain ⟨member, plain⟩ := arrives id here
  rw [← Run.spot_of_plain plain]
  exact joins.runs run grown (result, id) member _ scalar previous' state' same inhabited holds' shows

/-- A conditional with two arms. -/
theorem Stands.lowerArms {thenArm elseArm : ExprId} {ty : TypeId}
    (stands : Stands walk.toSource site context) (faithful : walk.Faithful)
    (current : context.builder.current = some func)
    (typed : walk.program.wellTyped site.ret depth site.leaves site.prims thenArm = true)
    (typed' : walk.program.wellTyped site.ret depth site.leaves site.prims elseArm = true)
    (carries : walk.program.prim? ty = some prim)
    (suits : carried ≠ .never → walk.program.suits prim thenArm = true ∧
      walk.program.suits prim elseArm = true) :
    Ensures (do
      let thenBlock ← build (Build.newBlock "then")
      let elseBlock ← build (Build.newBlock "else")
      build (Build.branch test thenBlock elseBlock)
      let first ← lowerArm walk func thenBlock thenArm
      let second ← lowerArm walk func elseBlock elseArm
      joinArms walk func ty (first.toList ++ second.toList)) context
      (MeansFrom walk.toSource site context.builder test carried (fun fuel truth =>
        .choose truth (walk.program.evaluate fuel thenArm) (walk.program.evaluate fuel elseArm))
          prim) := by
  obtain ⟨_, _, primThen, _, _, carriesThen, _⟩ := Program.wellTyped_cases typed
  obtain ⟨_, _, primElse, _, _, carriesElse, _⟩ := Program.wellTyped_cases typed'
  obtain ⟨id, here⟩ := stands.live
  refine stands.fork here fun thenBlock elseBlock second forks gives₂ => ?_
  refine gives₂.arm faithful current stands.bound forks.first typed carriesThen
    fun first start third enters₃ means₃ gives₃ => ?_
  have else₃ := (forks.second.beside enters₃.toMoves forks.differs.symm).still means₃.leads
  refine gives₃.arm faithful current stands.bound else₃ typed' carriesElse
    fun other start' fourth enters₄ means₄ gives₄ => ?_
  -- the end of the first arm waits while the second arm is lowered
  have waits : ∀ id, third.builder.here? = some id → start'.Waits id := fun id here₃ =>
    enters₄.waits (means₃.fit.opened here₃) fun same => else₃.waits.elsewhere (same ▸ here₃)
  have ends₃ : ∀ id, third.builder.here? = some id → fourth.builder.Waits id := fun id here₃ =>
    (waits id here₃).still means₄.leads
  have grown₃ : third.builder.body.Extends fourth.builder.body := enters₄.body ▸ means₄.leads.grown
  refine (gives₄.joinArms current stands.bound carries (fun arm member => ?_)
    (nodup_arms fun id here₃ => (ends₃ id here₃).elsewhere) fun arm member => ?_).mono
    fun value after joins => ?_
  · rcases mem_arms member with ⟨here₃, _⟩ | ⟨here₄, _⟩
    · exact ⟨(ends₃ _ here₃).opened, enters₃.own forks.first.new means₃.leads here₃⟩
    · exact ⟨means₄.fit.opened here₄, enters₄.own else₃.new means₄.leads here₄⟩
  · rcases mem_arms member with ⟨_, same⟩ | ⟨_, same⟩
    · rw [same]
      exact means₃.known.mono grown₃
    · rw [same]
      exact means₄.known
  · refine ⟨joins.toGives, joins.known, fun run grown fuel truth same inhabited => ?_⟩
    obtain ⟨suitsThen, suitsElse⟩ := suits inhabited
    have grown₄ := joins.grown.trans grown
    have grown₂ : second.body.Extends run.function :=
      enters₃.body ▸ means₃.leads.grown.trans (grown₃.trans grown₄)
    intro locals outcome locals' evaluated id' previous state here' holds shows
    cases here.symm.trans here'
    refine Run.ends_choose forks grown₂ shows evaluated (fun decided => ?_) fun decided => ?_
    · refine joins.arm grown enters₃ (means₃.runs run (grown₃.trans grown₄) fuel)
        (Program.prim_of_suits suitsThen carriesThen) (fun id₃ here₃ => ⟨by simp [here₃], ?_⟩) decided
        holds
      rw [(waits id₃ here₃).plain means₄.leads, enters₄.body]
    · exact joins.arm grown enters₄ (means₄.runs run grown₄ fuel)
        (Program.prim_of_suits suitsElse carriesElse) (fun id₄ here₄ => ⟨by simp [here₄], rfl⟩) decided
        holds

theorem Stands.lowerCond {thenArm : ExprId} {elseArm : Option ExprId} {expr : ExprId} {ty : TypeId}
    {span : Span} (stands : Stands walk.toSource site context) (faithful : walk.Faithful)
    (carries : walk.program.prim? ty = some prim) {test : ExprId}
    (checked : walk.program.checkNode (walk.program.wellTyped site.ret depth) site.leaves site.ret
      site.prims ⟨.cond test thenArm elseArm, span, ty⟩ prim = true) :
    Ensures (lowerCond walk test thenArm elseArm ty span) context (Means walk.toSource site
      context.builder (fun fuel => walk.program.evaluateNode (walk.program.evaluate fuel) expr
        ⟨.cond test thenArm elseArm, span, ty⟩) prim) := by
  unfold Lowering.lowerCond
  cases elseArm with
  | none =>
    simp only [Program.checkNode, Program.checkTest, Bool.and_eq_true, Bool.or_eq_true,
      beq_iff_eq] at checked
    obtain ⟨⟨⟨typed, _⟩, typedThen⟩, unit⟩ := checked
    obtain ⟨_, _, carried, _, _, carriesTest, _⟩ := Program.wellTyped_cases typed
    refine stands.afterValue faithful typed carriesTest fun operand second known stands₂ => ?_
    rw [ensures_bind]
    refine ensures_expectBool fun _ => ?_
    refine stands₂.withFunction fun func current => ?_
    exact stands₂.lowerWhen faithful current typedThen fun inhabited =>
      unit.resolve_left (Program.not_diverges carriesTest inhabited)
  | some elseArm =>
    simp only [Program.checkNode, Program.checkTest, Bool.and_eq_true, Bool.or_eq_true] at checked
    obtain ⟨⟨⟨⟨typed, _⟩, typedThen⟩, typedElse⟩, suits⟩ := checked
    obtain ⟨_, _, carried, _, _, carriesTest, _⟩ := Program.wellTyped_cases typed
    refine stands.afterValue faithful typed carriesTest fun operand second known stands₂ => ?_
    rw [ensures_bind]
    refine ensures_expectBool fun _ => ?_
    refine stands₂.withFunction fun func current => ?_
    exact stands₂.lowerArms faithful current typedThen typedElse carries fun inhabited =>
      suits.resolve_left (Program.not_diverges carriesTest inhabited)

end Conditional

end TreeLowering.Lowering
