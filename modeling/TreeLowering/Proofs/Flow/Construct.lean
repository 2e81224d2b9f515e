/-
This file states what the lowering of a construct has to achieve and proves it for the constructs
that do not branch. A construct is lowered from a moment `base` on, in an environment that is
usable there. It must leave a valid moment behind, the same blocks waiting and the same
environment, and its value must be its own.
-/

import TreeLowering.Proofs.Flow.Copy

namespace TreeLowering.Lowering

open TreeLowering.Ir TreeLowering.Tree Moment

/-- A point in the lowering of a construct that began at `base`: `now` is the moment in it, and
there is a block to emit into. -/
structure Standing (base now : Moment) (env : Env) (context : Context) : Prop where
  building : context.builder = now.builder
  binding : context.env = env
  start : base.Valid
  bound : base.EnvOk env
  valid : now.Valid
  live : now.Live
  since : Since base now

/-- What a construct that began at `base` may leave behind. -/
def Yields {α : Type} (base : Moment) (env : Env) (good : Moment → α → Prop) (result : α)
    (after : Context) : Prop :=
  ∃ now : Moment, now.builder = after.builder ∧ now.Valid ∧ Since base now ∧ after.env = env ∧
    (now.Live → good now result)

/-- What is asked of the lowering of the parts of a construct. -/
structure Walk.Sound (walk : Walk) : Prop where
  expr : ∀ {now context}, Standing now now context.env context → ∀ part,
    Ensures (walk.expr part) context (Yields now context.env (Produced now))
  place : ∀ {now context}, Standing now now context.env context → ∀ part,
    Ensures (walk.place part) context (Yields now context.env fun next place =>
      next.Address place.address)

section Rules

variable {α β : Type} {base now : Moment} {env : Env} {context : Context}

theorem Standing.usable (standing : Standing base now env context) : now.EnvOk env :=
  standing.bound.mono standing.since.toGrows (standing.since.here standing.live)

/-- A construct that stands somewhere may begin anew there. -/
theorem Standing.renew (standing : Standing base now env context) :
    Standing now now env context :=
  ⟨standing.building, standing.binding, standing.valid, standing.usable, standing.valid,
    standing.live, .refl now⟩

theorem Standing.restart (standing : Standing base now env context) :
    Standing now now context.env context :=
  standing.binding ▸ standing.renew

/-- A step of the builder from where a construct stands. -/
theorem Standing.advance {next : Moment} (standing : Standing base now env context)
    (valid : next.Valid) (live : next.Live) (since : Since base next) :
    Standing base next env { context with builder := next.builder } :=
  ⟨rfl, standing.binding, standing.start, standing.bound, valid, live, since⟩

theorem Standing.yields {good : Moment → α → Prop} {result : α}
    (standing : Standing base now env context) (holds : good now result) :
    Yields base env good result context :=
  ⟨now, standing.building.symm, standing.valid, standing.since, standing.binding, fun _ => holds⟩

/-- What holds from a later beginning holds from an earlier one. -/
theorem Yields.rebase {good good' : Moment → α → Prop} {result : α} {after : Context}
    (yields : Yields now env good result after) (since : Since base now) (live : now.Live)
    (weaker : ∀ next, Since now next → next.Live → good next result → good' next result) :
    Yields base env good' result after := by
  obtain ⟨next, same, valid, later, kept, holds⟩ := yields
  exact ⟨next, same, valid, since.trans live later, kept, fun still =>
    weaker next later still (holds still)⟩

/-- The rule of dead code for the parts of a construct. -/
theorem Standing.thenLive {action : LowerM α} {next : α → LowerM β} {dead : β}
    {first : Moment → α → Prop} {good : Moment → β → Prop}
    (standing : Standing base now env context)
    (part : Ensures action context (Yields now context.env first))
    (rest : ∀ result later after, Standing base later env after → Since now later →
      first later result → Ensures (next result) after (Yields base env good)) :
    Ensures (thenLive dead action next) context (Yields base env good) := by
  rw [ensures_thenLive]
  refine part.mono ?_
  rintro result after ⟨later, same, valid, since, kept, holds⟩
  have whole : Since base later := standing.since.trans standing.live since
  rw [standing.binding] at kept
  split_ifs with live
  · rw [← same] at live
    exact rest result later after
      ⟨same.symm, kept, standing.start, standing.bound, valid, live, whole⟩ since (holds live)
  · refine ⟨later, same, valid, whole, kept, fun alive => absurd ?_ live⟩
    rw [← same]
    exact alive

theorem Standing.withValue {walk : Walk} {part : ExprId} {next : Value → LowerM Value}
    {good : Moment → Value → Prop} (standing : Standing base now env context) (sound : walk.Sound)
    (rest : ∀ value later after, Standing base later env after → Since now later →
      Produced now later value → Ensures (next value) after (Yields base env good)) :
    Ensures (walk.withValue part next) context (Yields base env good) :=
  standing.thenLive (sound.expr standing.restart part) rest

/-- The last instruction of a construct yields its value. -/
theorem Standing.emit {op : Operation} {ty : Ty} (standing : Standing base now env context)
    (plain : op.isPhi = false) (usable : ∀ value ∈ op.operands, Usable base now value) :
    Ensures (build (Build.emitTemp op ty)) context (Yields base env (Produced base)) := by
  rw [ensures_build, standing.building]
  refine Ensures.mono (emitted standing.since standing.valid standing.live plain usable) ?_
  rintro value _ ⟨next, rfl, emitted⟩
  exact (standing.advance emitted.valid emitted.live emitted.since).yields emitted.produced

/-- An operand that is neither a register nor a parameter is a value anywhere. -/
theorem Moment.Produced.of_constant {value : Value} (constant : ∀ params known,
    value.Readable params known) (none : value.regName? = none) : Produced base now value :=
  (Settled.of_constant none (constant _ _)).produced

/-- Declarations leave a construct where it stands. -/
theorem Standing.quiet {after : Context} (standing : Standing base now env context)
    (quietly : Quietly context after) :
    ∃ target, now.builder.target.Declares target ∧ Since now (now.retarget target) ∧
      Standing base (now.retarget target) env after := by
  have declares := quietly.declares
  have builder := quietly.builder
  rw [standing.building] at declares builder
  obtain ⟨valid, since⟩ := declared standing.valid declares
  exact ⟨_, declares, since, builder, quietly.env.trans standing.binding, standing.start,
    standing.bound, valid, standing.live, standing.since.trans standing.live since⟩

/-- Declarations come before the rest of a construct. -/
theorem Standing.afterQuiet {action : LowerM α} {next : α → LowerM β} {post : β → Context → Prop}
    (standing : Standing base now env context) (answer : α → Context → Prop)
    (part : Ensures action context fun result after => Quietly context after ∧ answer result after)
    (rest : ∀ result later after, Standing base later env after → Since now later →
      answer result after → Ensures (next result) after post) :
    Ensures (action >>= next) context post := by
  rw [ensures_bind]
  refine part.mono fun result after ⟨quietly, answered⟩ => ?_
  obtain ⟨target, _, since, standing'⟩ := standing.quiet quietly
  exact rest result _ after standing' since answered

theorem Standing.afterType {source : Source} {ty : TypeId} {next : Ty → LowerM β}
    {post : β → Context → Prop} (standing : Standing base now env context)
    (rest : ∀ mapped later after, Standing base later env after → Since now later →
      Ensures (next mapped) after post) :
    Ensures (lowerType source ty >>= next) context post := by
  refine standing.afterQuiet (fun _ _ => True) ?_ fun mapped later after standing' since _ =>
    rest mapped later after standing' since
  exact (ensures_lowerType source ty).mono fun _ _ quietly => ⟨quietly, trivial⟩

/-! ### Steps of the builder inside a construct -/

theorem Standing.afterEmit {op : Operation} {ty : Ty} {next : Value → LowerM β}
    {post : β → Context → Prop} (standing : Standing base now env context)
    (plain : op.isPhi = false) (usable : ∀ value ∈ op.operands, Usable base now value)
    (rest : ∀ value later, Standing base later env { context with builder := later.builder } →
      Emitted base now later value ty →
      Ensures (next value) { context with builder := later.builder } post) :
    Ensures (build (Build.emitTemp op ty) >>= next) context post := by
  rw [ensures_bind, ensures_build, standing.building]
  refine Ensures.mono (emitted standing.since standing.valid standing.live plain usable) ?_
  rintro value _ ⟨later, rfl, emitted⟩
  exact rest value later (standing.advance emitted.valid emitted.live emitted.since) emitted

theorem Standing.afterSlot {ty : Ty} {variableName : Option String} {next : Value → LowerM β}
    {post : β → Context → Prop} (standing : Standing base now env context)
    (rest : ∀ address later, Standing base later env { context with builder := later.builder } →
      Since now later → later.Address address →
      Ensures (next address) { context with builder := later.builder } post) :
    Ensures (build (Build.alloca ty variableName) >>= next) context post := by
  rw [ensures_bind, ensures_build, standing.building]
  refine Ensures.mono (reserved standing.valid standing.live) ?_
  rintro address _ ⟨later, rfl, valid, since, live, slot⟩
  exact rest address later
    (standing.advance valid live (standing.since.trans standing.live since)) since slot

theorem Standing.afterStore {address value : Value} {next : Unit → LowerM β}
    {post : β → Context → Prop} (standing : Standing base now env context)
    (destination : now.Address address) (produced : Produced base now value)
    (rest : ∀ later, Standing base later env { context with builder := later.builder } →
      (∀ other, now.Address other → later.Address other) →
      Ensures (next ()) { context with builder := later.builder } post) :
    Ensures (build (Build.store address value) >>= next) context post := by
  rw [ensures_bind, ensures_build, standing.building]
  refine Ensures.mono (stored standing.start standing.since standing.valid standing.live destination
    produced) ?_
  rintro _ _ ⟨later, rfl, valid, since, live, kept⟩
  exact rest later (standing.advance valid live since) kept

end Rules

end TreeLowering.Lowering
