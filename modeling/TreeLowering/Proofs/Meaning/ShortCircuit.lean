/-
This file proves that short circuits are lowered faithfully. The left operand is stored into a slot,
and control goes on through the right operand, which is stored into the same slot, or straight to
where the ways meet. The slot holds the result there, whichever way control came.
-/

import TreeLowering.Proofs.Meaning.Operator
import TreeLowering.Proofs.Meaning.Ways

namespace TreeLowering.Tree.Evaluation

variable {thenArm elseArm right : Evaluation} {test first : Scalar} {locals locals' : Locals}
  {outcome : Outcome}

theorem choose_eq_some (evaluated : choose test thenArm elseArm locals = some (outcome, locals')) :
    ∃ truth, test = .bool truth ∧
      (if truth = true then thenArm else elseArm) locals = some (outcome, locals') := by
  unfold choose at evaluated
  split_ifs at evaluated with yes no
  · exact ⟨true, yes, evaluated⟩
  · exact ⟨false, no, evaluated⟩
  · cases evaluated

/-- The left operand of a short circuit either leads to the right one or is the result. -/
theorem shortCircuit_eq_some {isAnd : Bool}
    (evaluated : (if isAnd = true then choose first right (ends (.value first))
      else choose first (ends (.value first)) right) locals = some (outcome, locals')) :
    ∃ truth, first = .bool truth ∧
      (if truth = isAnd then right else ends (.value (.bool truth))) locals =
        some (outcome, locals') := by
  cases isAnd with
  | true =>
    rw [if_pos rfl] at evaluated
    obtain ⟨truth, rfl, chosen⟩ := choose_eq_some evaluated
    exact ⟨truth, rfl, chosen⟩
  | false =>
    rw [if_neg Bool.false_ne_true] at evaluated
    obtain ⟨truth, rfl, chosen⟩ := choose_eq_some evaluated
    refine ⟨truth, rfl, ?_⟩
    cases truth with
    | true => exact chosen
    | false => exact chosen

end TreeLowering.Tree.Evaluation

namespace TreeLowering.Lowering

open TreeLowering.Ir TreeLowering.Tree Builder

/-! ### The code of a short circuit -/

/-- The code of a short circuit up to the right operand. The left operand is stored into a slot, and
it decides whether control goes on through the right operand. -/
structure Circuit (isAnd : Bool) (site : Site) (now second third fourth start : Builder)
    (operand : Value) (slot : ValueName) (id rightBlock merge : BlockId) : Prop where
  here : now.here? = some id
  bound : Bound now.body site
  known : Known now.body operand
  reserves : Reserves now second ⟨slot, .ptr .bool true, .alloca .bool⟩
  emits : ∃ result, Emits second third id ⟨result, .unit, .store (.reg slot (.ptr .bool true)) operand⟩
  forks : Forks third fourth id (.branch operand (if isAnd then rightBlock else merge)
    (if isAnd then merge else rightBlock)) rightBlock merge
  enters : Enters third fourth start rightBlock

/-- Where control gets to the end of the right operand, it is stored into the slot as well, and
control goes on to where the ways meet. -/
def Builder.Delivers (now later : Builder) (slot : ValueName) (value : Value) (merge : BlockId) :
    Prop :=
  ∀ id, now.here? = some id → ∃ middle result, Emits now middle id
    ⟨result, .unit, .store (.reg slot (.ptr .bool true)) value⟩ ∧
      Exits middle later id (.jump merge) ∧ middle.body.Extends later.body

namespace Circuit

variable {isAnd : Bool} {site : Site} {now second third fourth start : Builder} {operand : Value}
  {slot : ValueName} {id rightBlock merge : BlockId}

theorem grown (circuit : Circuit isAnd site now second third fourth start operand slot id rightBlock
    merge) : now.body.Extends third.body := by
  obtain ⟨_, emits⟩ := circuit.emits
  exact circuit.reserves.leads.grown.trans emits.leads.grown

theorem leads (circuit : Circuit isAnd site now second third fourth start operand slot id rightBlock
    merge) : Leads now third := by
  obtain ⟨_, emits⟩ := circuit.emits
  exact circuit.reserves.leads.trans emits.leads

end Circuit

namespace Run

variable {run : Run} {site : Site} {isAnd : Bool}
  {base now second third fourth start sixth seventh eighth later : Builder}
  {id rightBlock merge : BlockId} {slot result name : ValueName} {operand value : Value}
  {locals : Locals} {state : State} {scalar : Scalar} {prim : Prim}

/-- Where the ways meet, the slot holds the result. -/
theorem ends_load {previous : Option BlockId} {ty : Ty} {left : Locals → State → Prop}
    (enters : Enters base now second merge)
    (emits : Emits second later merge ⟨name, .prim prim, .load (.reg slot ty)⟩)
    (grown : later.body.Extends run.function) (bound : Bound second.body site)
    (reserved : run.Reserved slot) (holds : run.Holds site locals state)
    (stores : run.Stores state slot scalar) (same : scalar.prim = prim) (inhabited : prim ≠ .never) :
    run.Ends site second (run.start merge previous state) state later (.reg name (.prim prim)) prim
      (run.Holds site) left (.value scalar) locals := by
  subst same
  rw [start_of_enters enters]
  exact ends_emit emits grown bound holds (compute_load (reserved.home holds) stores) rfl rfl inhabited

/-- The left operand chooses the way. -/
theorem reaches_way {previous : Option BlockId} {chosen : Bool}
    (forks : Forks third fourth id (.branch operand (if isAnd then rightBlock else merge)
      (if isAnd then merge else rightBlock)) rightBlock merge)
    (grown : fourth.body.Extends run.function) (shows : run.Shows state operand (.bool chosen)) :
    run.Reaches (run.spot third id previous state)
      (run.start (if chosen = isAnd then rightBlock else merge) (some id) state) := by
  have inner := forks.first.inner
  have inner' := forks.second.inner
  have reaches : run.Reaches (run.spot third id previous state) _ :=
    reaches_branch forks.toExits grown (by split_ifs <;> assumption) (by split_ifs <;> assumption) shows
  cases isAnd <;> cases chosen <;> exact reaches

/-- The left operand is stored before the ways part, and the right one on the way that leads through
it. -/
theorem simulates_shortCircuit {right : Evaluation} {first : Scalar}
    (circuit : Circuit isAnd site now second third fourth start operand slot id rightBlock merge)
    (leads : Leads start sixth)
    (simulates : run.Simulates site start sixth (fun _ => True) value prim right)
    (truth : prim ≠ .never → prim = .bool) (grown : sixth.body.Extends seventh.body)
    (delivers : Delivers sixth seventh slot value merge) (enters : Enters third seventh eighth merge)
    (emits : Emits eighth later merge ⟨name, .bool, .load (.reg slot (.ptr .bool true))⟩)
    (grown' : later.body.Extends run.function) :
    run.Simulates site now later (fun state => run.Shows state operand first) (.reg name .bool) .bool
      (if isAnd = true then .choose first right (.ends (.value first))
        else .choose first (.ends (.value first)) right) := by
  obtain ⟨result, emits₂⟩ := circuit.emits
  have reserves := circuit.reserves
  have bound := circuit.bound
  have grown₇ : seventh.body.Extends run.function :=
    enters.body ▸ emits.leads.grown.trans grown'
  have grown₅ := leads.grown.trans (grown.trans grown₇)
  have grown₄ : fourth.body.Extends run.function := circuit.enters.body ▸ grown₅
  have grown₃ := circuit.forks.leads.grown.trans grown₄
  have grown₂ := emits₂.leads.grown.trans grown₃
  have grown₁ := reserves.leads.grown.trans grown₂
  have upTo₅ := circuit.grown.trans circuit.enters.leads.grown
  have upTo₆ := upTo₅.trans leads.grown
  have upTo₈ := circuit.grown.trans enters.leads.grown
  have reserved : run.Reserved slot :=
    ⟨_, grown₂.slots ⟨slot, .ptr .bool true, .alloca .bool⟩ (by rw [reserves.slots]; simp), rfl⟩
  have unbound := bound.unbound reserves.fresh
  have covered : ∀ inst ∈ now.body.slots, inst.name = slot → slot ∈ slotNames site.env.scopes :=
    fun inst member named => absurd (Or.inr ⟨inst, member, named⟩) reserves.fresh
  have loaded : ∀ {locals scalar previous state}, run.Holds site locals state →
      run.Stores state slot scalar → scalar.prim = .bool → run.Ends site now
        (run.start merge previous state) state later (.reg name .bool) .bool (run.Holds site)
        (run.Holds site) (.value scalar) locals := fun holds stores same =>
    (ends_load enters emits grown' (bound.mono upTo₈) reserved holds stores same (by decide)).rebase
      upTo₈
  intro locals outcome locals' evaluated id' previous state here' holds shows
  cases circuit.here.symm.trans here'
  obtain ⟨chosen, rfl, decided⟩ := Evaluation.shortCircuit_eq_some evaluated
  have kept : run.Kept now.body site.env.scopes state (run.stored state result slot (.bool chosen)) :=
    .stored (fun sets => emits₂.fresh (reserves.leads.grown.sets sets)) grown₁ reserved covered
  have holds₃ : run.Holds site locals (run.stored state result slot (.bool chosen)) :=
    holds.stored (bound.mono reserves.leads.grown) emits₂ grown₃ reserved unbound
  have reaches₃ : run.Reaches (run.spot now id previous state)
      (run.spot third id previous (run.stored state result slot (.bool chosen))) := by
    rw [← spot_of_plain (reserves.plain id)]
    exact reaches_emit emits₂ grown₃ (compute_store (reserved.home holds) shows)
  have reaches₄ := reaches₃.trans (reaches_way circuit.forks grown₄ (shows.kept circuit.known kept))
  refine Ends.after ?_ (.refl site) (.refl _) (fun _ _ member => member) reaches₄ kept
  by_cases further : chosen = isAnd
  · rw [if_pos further] at decided ⊢
    refine ((simulates.entered circuit.enters decided holds₃).rebase upTo₅).onward
      fun scalar id₆ previous₆ state₆ same typed inhabited here₆ shows₆ holds₆ => ?_
    subst same
    obtain ⟨middle, result', emits₆, exits, upTo⟩ := delivers id₆ here₆
    have arrives : run.Reaches (run.spot sixth id₆ previous₆ state₆)
        (run.start merge (some id₆) (run.stored state₆ result' slot scalar)) :=
      (reaches_emit emits₆ (upTo.trans grown₇) (compute_store (reserved.home holds₆) shows₆)).trans
        (reaches_jump exits grown₇ circuit.forks.second.inner)
    refine (loaded (holds₆.stored (bound.mono upTo₆) emits₆ (upTo.trans grown₇) reserved unbound)
      (stores_stored ..) (typed.trans (truth inhabited))).after (.refl site) (.refl _)
        (fun _ _ member => member) arrives ?_
    exact .stored (fun sets => emits₆.fresh (upTo₆.sets sets)) grown₁ reserved covered
  · rw [if_neg further] at decided ⊢
    obtain ⟨rfl, rfl⟩ := Evaluation.ends_eq_some decided
    exact loaded holds₃ (stores_stored ..) rfl

end Run

section Branch

variable {source : Source} {site : Site} {context : Context} {walk : Walk} {prim carried : Prim}
  {func : FuncId} {depth : Nat} {left right : ExprId} {isAnd : Bool}

/-- What a short circuit means when its left operand has a value. -/
def circuitMeaning (program : Program) (isAnd : Bool) (right : ExprId) (fuel : Nat) (first : Scalar) :
    Evaluation :=
  if isAnd = true then .choose first (program.evaluate fuel right) (.ends (.value first))
  else .choose first (.ends (.value first)) (program.evaluate fuel right)

/-- The ways meet, and the result is loaded from the slot. -/
theorem Circuit.meets {now second third fourth start : Builder} {middle last : Context}
    {operand value : Value} {slot : ValueName} {id rightBlock merge : BlockId} {rightPrim : Prim}
    (circuit : Circuit isAnd site now second third fourth start operand slot id rightBlock merge)
    (means : Means walk.toSource site start (fun fuel => walk.program.evaluate fuel right) rightPrim
      value middle)
    (gives : Gives walk.toSource site third last) (current : third.current = some func)
    (prepared : Prepared third last.builder merge)
    (grown : middle.builder.body.Extends last.builder.body)
    (delivers : Delivers middle.builder last.builder slot value merge)
    (truth : rightPrim ≠ .never → rightPrim = .bool) (whole : carried ≠ .never → prim = .bool) :
    Ensures (do
      build (Build.positionAt func merge)
      build (Build.load (.reg slot (.ptr .bool true)) .bool)) last
      (MeansFrom walk.toSource site now operand carried (circuitMeaning walk.program isAnd right)
        prim) := by
  refine gives.enter current prepared fun ninth enters gives' => ?_
  unfold Build.load
  rw [ensures_build]
  refine (gives'.fit.emit enters.here rfl).mono fun loaded final emitted => ?_
  obtain ⟨name, rfl, emits⟩ := emitted
  refine ⟨⟨emits.fit, circuit.leads.trans (gives'.leads.trans emits.leads), gives'.env, gives'.memo⟩,
    ⟨⟨.bool, rfl⟩, fun _ named => by cases named; exact emits.sets⟩,
    fun run grown' fuel first same inhabited => ?_⟩
  obtain rfl := whole inhabited
  have upTo : middle.builder.body.Extends run.function :=
    grown.trans (enters.body ▸ emits.leads.grown.trans grown')
  exact Run.simulates_shortCircuit circuit means.leads (means.runs run upTo fuel) truth grown delivers
    enters emits grown'

theorem Stands.lowerShortCircuit (stands : Stands walk.toSource site context)
    (faithful : walk.Faithful) (isAnd : Bool) (span : Span)
    (checked : walk.program.checkTest (walk.program.wellTyped site.ret depth) site.leaves site.prims
      left = true)
    (checked' : walk.program.checkTest (walk.program.wellTyped site.ret depth) site.leaves site.prims
      right = true)
    (truth : walk.program.diverges left = true ∨ prim = .bool) :
    Ensures (lowerShortCircuit walk isAnd left right span) context (Means walk.toSource site
      context.builder (fun fuel => (walk.program.evaluate fuel left).andThen
        (circuitMeaning walk.program isAnd right fuel)) prim) := by
  simp only [Program.checkTest, Bool.and_eq_true] at checked checked'
  obtain ⟨typed, suits⟩ := checked
  obtain ⟨typed', suits'⟩ := checked'
  obtain ⟨_, _, carried, _, _, carries, _⟩ := Program.wellTyped_cases typed
  obtain ⟨_, _, carried', _, _, carries', _⟩ := Program.wellTyped_cases typed'
  unfold Lowering.lowerShortCircuit
  refine stands.afterValue faithful typed carries fun operand second known stands₂ => ?_
  obtain ⟨id, here⟩ := stands₂.live
  rw [ensures_bind]
  refine ensures_expectBool fun scalar => ?_
  refine stands₂.withFunction fun func current => ?_
  rw [ensures_bind, ensures_build]
  refine stands₂.fit.reserve.mono fun address third reserved => ?_
  obtain ⟨slot, rfl, reserves⟩ := reserved
  rw [ensures_bind, ensures_build]
  refine (reserves.fit.store (reserves.here.trans here) scalar).mono fun _ fourth stored => ?_
  obtain ⟨result, emits⟩ := stored
  have leads₄ := reserves.leads.trans emits.leads
  have current₄ : fourth.current = some func := leads₄.current.trans current
  have stands₄ : Stands walk.toSource site { second with builder := fourth } :=
    ⟨emits.fit, ⟨id, emits.here⟩, stands₂.env, stands₂.bound.mono leads₄.grown, stands₂.memo⟩
  have branch : ∀ rightBlock merge, shortCircuitBranch isAnd operand rightBlock merge =
      Build.terminate (.branch operand (if isAnd then rightBlock else merge)
        (if isAnd then merge else rightBlock)) := by
    intro rightBlock merge
    cases isAnd <;> rfl
  simp only [branch]
  refine stands₄.fork emits.here fun rightBlock merge fifth forks gives₅ => ?_
  refine gives₅.enter current₄ forks.first fun sixth enters gives₆ => ?_
  have circuit : Circuit isAnd site second.builder third fourth fifth sixth operand slot id rightBlock
      merge := ⟨here, stands₂.bound, known, reserves, ⟨result, emits⟩, forks, enters⟩
  have stands₆ := gives₆.stands stands₄.bound ⟨rightBlock, enters.here⟩
  rw [ensures_bind]
  refine (faithful.expr stands₆ typed' carries').mono fun value seventh means => ?_
  have gives₇ := gives₆.trans means.toGives
  have merge₇ := (forks.second.beside enters.toMoves forks.differs.symm).still means.leads
  have truth' := Program.prim_of_suits suits' carries'
  have whole : carried ≠ .never → prim = .bool := fun inhabited =>
    truth.resolve_left (Program.not_diverges carries inhabited)
  refine afterLive (fun live => ?_) fun nowhere => ?_
  · obtain ⟨id₇, here₇⟩ := live
    rw [if_pos rfl, ensures_bind, ensures_build]
    obtain ⟨_, scalar⟩ := means.known.scalar
    refine (means.fit.store here₇ (by rw [scalar]; rfl)).mono fun _ eighth stored => ?_
    obtain ⟨result', emits'⟩ := stored
    refine (gives₇.built emits'.fit (gives₇.leads.trans emits'.leads)).close emits'.here
      fun ninth closes gives₉ => ?_
    refine circuit.meets means gives₉ current₄ ((merge₇.still emits'.leads).still closes.leads)
      (emits'.leads.grown.trans closes.leads.grown) (fun id here => ?_) truth' whole
    cases here₇.symm.trans here
    exact ⟨eighth, result', emits', closes.toExits, closes.leads.grown⟩
  · rw [if_neg Bool.false_ne_true]
    refine circuit.meets means gives₇ current₄ merge₇ (.refl _) (fun id here => ?_) truth' whole
    rw [nowhere] at here
    cases here

end Branch

end TreeLowering.Lowering
