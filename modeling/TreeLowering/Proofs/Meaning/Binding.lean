/-
This file proves that names are bound faithfully, by `let` and as parameters. A name is bound to an
operand that shows its value, or to a new slot that holds it. The new slot is not yet that of
another name, so storing into it leaves the other variables as they are.
-/

import TreeLowering.Proofs.Meaning.Variable

namespace TreeLowering.Tree.Scopes

variable {α : Type}

theorem tail_bind (scopes : Scopes α) (name : Name) (item : α) :
    (scopes.bind name item).tail = scopes.tail := by
  cases scopes <;> rfl

theorem flatten_bind (scopes : Scopes α) (name : Name) (item : α) :
    (scopes.bind name item).flatten = (name, item) :: scopes.flatten := by
  cases scopes <;> rfl

end TreeLowering.Tree.Scopes

namespace TreeLowering.Lowering

open TreeLowering.Ir TreeLowering.Tree Builder

theorem Env.scopes_bind (env : Env) (name : Name) (binding : Binding) :
    (env.bind name binding).scopes = Scopes.bind env.scopes name binding := by
  obtain ⟨scopes, frames⟩ := env
  cases scopes <;> rfl

theorem slotNames_bind (scopes : Scopes Binding) (name : Name) (binding : Binding) :
    slotNames (scopes.bind name binding) = binding.slotName?.toList ++ slotNames scopes := by
  rw [slotNames, Scopes.flatten_bind, List.filterMap_cons, slotNames]
  cases binding.slotName? <;> rfl

/-- The site behind a binding. -/
def Site.bind (site : Site) (name : Name) (binding : Binding) (prim : Prim) : Site :=
  { site with env := site.env.bind name binding, prims := site.prims.bind name prim }

theorem Site.alike_bind (site : Site) (name : Name) (binding : Binding) (prim : Prim) :
    site.Alike (site.bind name binding prim) := ⟨Env.frames_bind .., rfl, rfl⟩

theorem Bound.bind {body : Function} {site : Site} {name : Name} {binding : Binding} {prim : Prim}
    (bound : Bound body site) (suits : Suits body prim binding)
    (unbound : ∀ slot, binding.slotName? = some slot → slot ∉ slotNames site.env.scopes) :
    Bound body (site.bind name binding prim) := by
  have alike := site.alike_bind name binding prim
  refine ⟨?_, ?_, ?_, fun jump id found => ?_⟩
  · show Scopes.Agree _ _ (site.env.bind name binding).scopes
    rw [Env.scopes_bind]
    exact bound.entries.bind suits name
  · show (slotNames (site.env.bind name binding).scopes).Nodup
    rw [Env.scopes_bind, slotNames_bind]
    cases named : binding.slotName? with
    | none => exact bound.distinct
    | some slot => exact List.nodup_cons.2 ⟨unbound slot named, bound.distinct⟩
  · rw [Env.returnType?, alike.frames]
    exact bound.returns
  · exact bound.inner jump id ((alike.target? jump).symm.trans found)

theorem Run.Holds.bind {run : Run} {site : Site} {locals : Locals} {state : State} {binding : Binding}
    {content : Option Scalar} {prim : Prim} (holds : run.Holds site locals state)
    (carries : run.Carries state binding content) (typed : HasPrim prim content) (name : Name) :
    run.Holds (site.bind name binding prim) (locals.bind name content) state := by
  refine ⟨holds.homes, ?_, holds.typed.bind typed name⟩
  show Scopes.Agree _ (site.env.bind name binding).scopes _
  rw [Env.scopes_bind]
  exact holds.cells.bind carries name

/-! ### What binding a name leaves behind -/

/-- Whether the operand that a name is bound to, if it is bound to any, shows its value. -/
def Run.Offers (run : Run) (state : State) (prim : Prim) : Option Value → Option Scalar → Prop
  | none, none => True
  | some value, some scalar => run.Shows state value scalar ∧ scalar.prim = prim ∧ prim ≠ .never
  | _, _ => False

theorem Run.Offers.hasPrim {run : Run} {state : State} {prim : Prim} {value : Option Value}
    {content : Option Scalar} (offers : run.Offers state prim value content) :
    HasPrim prim content := by
  intro scalar same
  subst same
  cases value with
  | none => cases offers
  | some value => exact offers.2

/-- A name was bound to something that holds its value. -/
structure Binds (source : Source) (site : Site) (now : Builder) (name : Name) (prim : Prim)
    (value : Option Value) (binding : Binding) (after : Context) : Prop where
  fit : after.builder.Fit
  leads : Leads now after.builder
  memo : after.memo.Sound source
  here : after.builder.here? = now.here?
  env : after.env = site.env.bind name binding
  suits : Suits after.builder.body prim binding
  fresh : ∀ slot, binding.slotName? = some slot → ¬ now.body.Sets slot
  runs : ∀ run : Run, after.builder.body.Extends run.function → ∀ locals content id previous state,
    now.here? = some id → run.Holds site locals state → run.Offers state prim value content →
      run.Comes now.body site.env.scopes state (run.spot now id previous state)
        (run.spot after.builder id) fun state => run.Holds site locals state ∧
          run.Carries state binding content

section Binds

variable {source : Source} {site : Site} {context after : Context} {now : Builder} {name : Name}
  {prim : Prim} {value : Option Value} {binding : Binding}

theorem Binds.bound (binds : Binds source site now name prim value binding after)
    (bound : Bound now.body site) :
    Bound after.builder.body (site.bind name binding prim) :=
  (bound.mono binds.leads.grown).bind binds.suits fun slot named =>
    bound.unbound (binds.fresh slot named)

/-- The slots that were there are bound to what they were bound to. -/
theorem Binds.covered (binds : Binds source site now name prim value binding after) :
    ∀ slot ∈ now.body.slots, slot.name ∈ slotNames after.env.scopes →
      slot.name ∈ slotNames site.env.scopes := by
  intro slot member named
  rw [binds.env, Env.scopes_bind, slotNames_bind] at named
  rcases List.mem_append.1 named with new | old
  · exact absurd (Or.inr ⟨slot, member, rfl⟩) (binds.fresh slot.name (Option.mem_toList.1 new))
  · exact old

/-- A name that is held as an operand needs no code. -/
theorem Stands.bindOperand {operand : Value} (stands : Stands source site context)
    (stays : Stays context.builder now) (known : Known context.builder.body operand)
    (direct : ∀ body, Known body operand → Suits body prim binding)
    (bare : binding.slotName? = none)
    (carries : ∀ (run : Run) state scalar, run.Shows state operand scalar →
      run.Carries state binding (some scalar)) :
    Binds source site context.builder name prim (some operand) binding
      { context with builder := now, env := context.env.bind name binding } := by
  have body := stays.body
  refine ⟨stays.fit, stays.leads, stands.memo, stays.here, by rw [stands.env],
    direct _ (body ▸ known), fun slot named => ?_, fun run grown locals content id previous state here
      holds offers => ?_⟩
  · rw [bare] at named
    cases named
  · cases content with
    | none => cases offers
    | some scalar =>
      refine ⟨previous, state, ?_, .refl _ _ _ _, holds, carries run state scalar offers.1⟩
      dsimp only
      rw [Run.spot_of_plain (by rw [body])]
      exact Run.reaches_refl _

/-! ### Slots -/

/-- The slot of a name without a value holds anything. -/
theorem Stands.bindEmpty {slot : ValueName} {later : Builder} (stands : Stands source site context)
    (reserves : Reserves context.builder later
      ⟨slot, .ptr (.prim prim) true, .alloca (.prim prim)⟩) (name : Name) (mutable : Bool) :
    Binds source site context.builder name prim none
      (.slot (.reg slot (.ptr (.prim prim) true)) (.prim prim) mutable)
      { context with
        builder := later
        env := context.env.bind name
          (.slot (.reg slot (.ptr (.prim prim) true)) (.prim prim) mutable) } := by
  refine ⟨reserves.fit, reserves.leads, stands.memo, reserves.here, by rw [stands.env],
    ⟨rfl, slot, rfl, by rw [reserves.slots]; simp⟩, fun _ named => by cases named; exact reserves.fresh,
    fun run grown locals content id previous state here holds offers => ?_⟩
  cases content with
  | some scalar => cases offers
  | none =>
    refine ⟨previous, state, ?_, .refl _ _ _ _, holds, fun scalar same => by cases same⟩
    dsimp only
    rw [Run.spot_of_plain (reserves.plain id)]
    exact Run.reaches_refl _

/-- The slot of a name with a value holds the value after a store. -/
theorem Stands.bindStored {slot result : ValueName} {middle later : Builder} {id : BlockId}
    {operand : Value} (stands : Stands source site context)
    (here : context.builder.here? = some id)
    (reserves : Reserves context.builder middle
      ⟨slot, .ptr (.prim prim) true, .alloca (.prim prim)⟩)
    (emits : Emits middle later id
      ⟨result, .unit, .store (.reg slot (.ptr (.prim prim) true)) operand⟩)
    (name : Name) (mutable : Bool) :
    Binds source site context.builder name prim (some operand)
      (.slot (.reg slot (.ptr (.prim prim) true)) (.prim prim) mutable)
      { context with
        builder := later
        env := context.env.bind name
          (.slot (.reg slot (.ptr (.prim prim) true)) (.prim prim) mutable) } := by
  have listed : (⟨slot, .ptr (.prim prim) true, .alloca (.prim prim)⟩ : Instruction) ∈
      middle.body.slots := by
    rw [reserves.slots]
    simp
  refine ⟨emits.fit, reserves.leads.trans emits.leads, stands.memo, emits.here.trans here.symm,
    by rw [stands.env], ⟨rfl, slot, rfl, emits.leads.grown.slots _ listed⟩,
    fun _ named => by cases named; exact reserves.fresh,
    fun run grown locals content id' previous state here' holds offers => ?_⟩
  cases here.symm.trans here'
  cases content with
  | none => cases offers
  | some scalar =>
    obtain ⟨shows, same, _⟩ := offers
    have grown₂ := emits.leads.grown.trans grown
    have grown₁ := reserves.leads.grown.trans grown₂
    have reserved : run.Reserved slot := ⟨_, grown₂.slots _ listed, rfl⟩
    have unbound := stands.bound.unbound reserves.fresh
    refine ⟨previous, run.stored state result slot scalar, ?_, ?_, ?_, fun _ equal => ?_⟩
    · rw [← Run.spot_of_plain (reserves.plain id)]
      exact Run.reaches_emit emits grown (Run.compute_store (reserved.home holds) shows)
    · refine .stored (fun sets => emits.fresh (reserves.leads.grown.sets sets)) grown₁ reserved ?_
      intro inst member named
      exact absurd (Or.inr ⟨inst, member, named⟩) reserves.fresh
    · exact holds.stored (stands.bound.mono reserves.leads.grown) emits grown reserved unbound
    · cases equal
      exact ⟨by rw [same], Run.stores_stored run state result slot scalar⟩

end Binds

end TreeLowering.Lowering
