/-
This file states what it means for a construct to be lowered faithfully: the code that was added for
it does what its evaluation says, in whatever way the function is finished afterwards. It also holds
the rules by which the lowering of a construct is followed step by step.
-/

import TreeLowering.Proofs.Meaning.Follow
import TreeLowering.Proofs.Meaning.Memo

namespace TreeLowering.Lowering

open TreeLowering.Ir TreeLowering.Tree Builder

/-- A point in the lowering of a well-typed body: names are bound as their types ask, and there is a
block to emit into. -/
structure Stands (source : Source) (site : Site) (context : Context) : Prop where
  fit : context.builder.Fit
  live : ∃ id, context.builder.here? = some id
  env : context.env = site.env
  bound : Bound context.builder.body site
  memo : context.memo.Sound source

/-- What the lowering of a construct leaves behind. -/
structure Gives (source : Source) (site : Site) (now : Builder) (after : Context) : Prop where
  fit : after.builder.Fit
  leads : Leads now after.builder
  env : after.env = site.env
  memo : after.memo.Sound source

/-- What the lowering of an expression leaves behind: its value, and code that computes it. -/
structure Means (source : Source) (site : Site) (now : Builder) (meaning : Nat → Evaluation)
    (prim : Prim) (value : Value) (after : Context) : Prop extends Gives source site now after where
  known : Known after.builder.body value
  runs : ∀ run : Run, after.builder.body.Extends run.function → ∀ fuel,
    run.Simulates site now after.builder (fun _ => True) value prim (meaning fuel)

/-- What going on with the value of a part leaves behind: the code that was added computes the value
of the whole from it. -/
structure MeansFrom (source : Source) (site : Site) (now : Builder) (operand : Value) (carried : Prim)
    (meaning : Nat → Scalar → Evaluation) (prim : Prim) (value : Value) (after : Context) : Prop
    extends Gives source site now after where
  known : Known after.builder.body value
  runs : ∀ run : Run, after.builder.body.Extends run.function → ∀ fuel scalar,
    scalar.prim = carried → carried ≠ .never → run.Simulates site now after.builder
      (fun state => run.Shows state operand scalar) value prim (meaning fuel scalar)

/-- What is asked of the lowering of the parts of a construct. -/
structure Walk.Faithful (walk : Walk) : Prop where
  expr : ∀ {site context part prim depth}, Stands walk.toSource site context →
    walk.program.wellTyped site.ret depth site.leaves site.prims part = true →
    walk.program.typeOf? part = some prim →
    Ensures (walk.expr part) context (Means walk.toSource site context.builder
      (fun fuel => walk.program.evaluate fuel part) prim)
  place : ∀ {site context target name prim}, Stands walk.toSource site context →
    walk.program.assignee? target = some name → site.prims.resolve? name = some prim →
    Ensures (walk.place target) context fun place after =>
      (∃ id, after.builder.here? = some id) ∧ (place.mutable = true →
        after = context ∧ site.env.resolve? name = some (.slot place.address place.ty true))

section Rules

variable {β : Type} {source : Source} {site : Site} {context : Context} {walk : Walk}

theorem Known.of_constant {body : Function} {value : Value} {prim : Prim}
    (typed : value.ty = .prim prim) (none : value.regName? = none) : Known body value :=
  ⟨⟨prim, typed⟩, fun name named => by rw [none] at named; cases named⟩

theorem Gives.stands {now : Builder} {after : Context} (gives : Gives source site now after)
    (bound : Bound now.body site) (live : ∃ id, after.builder.here? = some id) :
    Stands source site after :=
  ⟨gives.fit, live, gives.env, bound.mono gives.leads.grown, gives.memo⟩

theorem here_of_isSome {builder : Builder} (live : builder.cursor.isSome = true) :
    ∃ id, builder.here? = some id := by
  obtain ⟨cursor, positioned⟩ := Option.isSome_iff_exists.1 live
  exact ⟨cursor.block, by rw [here?, positioned]; rfl⟩

theorem here_of_not_isSome {builder : Builder} (dead : ¬ builder.cursor.isSome = true) :
    builder.here? = none := by
  rw [here?, Option.not_isSome_iff_eq_none.1 dead]
  rfl

/-- The rule of dead code. -/
theorem Stands.thenLive {α : Type} {action : LowerM α} {next : α → LowerM β} {dead : β}
    {first : α → Context → Prop} {post : β → Context → Prop} (part : Ensures action context first)
    (stop : ∀ result after, first result after → after.builder.here? = none → post dead after)
    (rest : ∀ result after, first result after → (∃ id, after.builder.here? = some id) →
      Ensures (next result) after post) : Ensures (thenLive dead action next) context post := by
  rw [ensures_thenLive]
  refine part.mono fun result after ensured => ?_
  split_ifs with live
  · exact rest result after ensured (here_of_isSome live)
  · exact stop result after ensured (here_of_not_isSome live)

/-- Goes on with the value of a part. -/
theorem Stands.withValue {part : ExprId} {prim : Prim} {depth : Nat} {next : Value → LowerM Value}
    {post : Value → Context → Prop} (stands : Stands walk.toSource site context)
    (faithful : walk.Faithful)
    (typed : walk.program.wellTyped site.ret depth site.leaves site.prims part = true)
    (carries : walk.program.typeOf? part = some prim)
    (stop : ∀ value after, Means walk.toSource site context.builder
      (fun fuel => walk.program.evaluate fuel part) prim value after → after.builder.here? = none →
      post .unreachable after)
    (rest : ∀ value after, Means walk.toSource site context.builder
      (fun fuel => walk.program.evaluate fuel part) prim value after →
      Stands walk.toSource site after → Ensures (next value) after post) :
    Ensures (walk.withValue part next) context post :=
  Stands.thenLive (faithful.expr stands typed carries) stop fun value after means live =>
    rest value after means (means.toGives.stands stands.bound live)

/-- Goes on with the value of a part, when all that follows depends on no other part. -/
theorem Stands.afterValue {part : ExprId} {prim carried : Prim} {depth : Nat}
    {next : Value → LowerM Value} {meaning : Nat → Scalar → Evaluation}
    (stands : Stands walk.toSource site context) (faithful : walk.Faithful)
    (typed : walk.program.wellTyped site.ret depth site.leaves site.prims part = true)
    (carries : walk.program.typeOf? part = some carried)
    (rest : ∀ operand after, Known after.builder.body operand → Stands walk.toSource site after →
      Ensures (next operand) after
        (MeansFrom walk.toSource site after.builder operand carried meaning prim)) :
    Ensures (walk.withValue part next) context (Means walk.toSource site context.builder
      (fun fuel => (walk.program.evaluate fuel part).andThen (meaning fuel)) prim) := by
  refine stands.withValue faithful typed carries (fun value after means nowhere => ?_)
    fun operand second means stands₂ => ?_
  · exact ⟨means.toGives, .of_constant rfl rfl, fun run grown fuel =>
      (means.runs run grown fuel).dead nowhere⟩
  · refine (rest operand second means.known stands₂).mono fun value after continues => ?_
    refine ⟨⟨continues.fit, means.leads.trans continues.leads, continues.env, continues.memo⟩,
      continues.known, fun run grown fuel => ?_⟩
    refine (means.runs run (continues.leads.grown.trans grown) fuel).andThen means.leads.grown
      (fun _ _ _ _ => trivial) fun scalar same inhabited => ?_
    exact (continues.runs run grown fuel scalar same inhabited).weaken fun _ carried => carried.2

end Rules

end TreeLowering.Lowering
