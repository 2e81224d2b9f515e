/-
This file compares two runs of the lowering that are taken step by step beside each other. A
`Pairing` says what holds of both states between any two steps, and what their parts can rely on.
`Matches pairing scope action action' context context' post` says that both actions return, and then
keep to the pairing and end as `post` says, or that both fail; only a run that was halted on purpose
may fail alone. Sequences, dead code and the brackets around scopes, loops and functions each have a
rule.
-/

import TreeLowering.Proofs.Ensures

namespace TreeLowering.Lowering

open TreeLowering.Ir TreeLowering.Tree

theorem Env.scopes_modifyFrame (env : Env) (change : Frame → Frame) :
    (env.modifyFrame change).scopes = env.scopes := by
  unfold Env.modifyFrame
  split <;> rfl

/-! ### Pairings -/

/-- What a run has made so far. -/
structure Work where
  builder : Builder
  memo : TypeMemo
  strings : List (String × Value)

/-- A run without its environment. -/
def Context.work (context : Context) : Work := ⟨context.builder, context.memo, context.strings⟩

/-- What was made, after a step of the type mapping. -/
def Work.mapped (work : Work) (after : TypeState) : Work :=
  { work with memo := after.memo, builder := { work.builder with target := after.target } }

/-- What two runs beside each other have in common. -/
structure Pairing where
  /-- What holds of both runs at every point. -/
  holds : Work → Work → Prop
  /-- The values that may be used by now. -/
  sound : Work → Work → Value → Prop
  /-- The values that are the address of something of a type. -/
  typed : Value → Ty → Prop
  /-- What a name may be bound to. -/
  bindable : Name → Binding → Prop
  /-- The functions that are built. -/
  mine : FuncId → FuncId → Prop
  /-- The functions that may be called. -/
  callee : FuncId → FuncId → Prop
  /-- What a resolved type is mapped to. -/
  mapped : TypeId → Ty → Prop
  /-- The names that are looked up, with the scopes they are looked up from. -/
  looksUp : ScopeId → Name → Prop
  /-- The names whose address is used. -/
  addresses : Name → Prop
  /-- Whether slots may be named. -/
  namesSlots : Prop
  /-- Whether there may be string literals. -/
  hasTexts : Prop
  /-- The errors that may end both runs. -/
  excused : Error → Error → Prop
  /-- The errors that halt the first run, whatever the second does. -/
  halts : Error → Prop

namespace Pairing

/-- A type may be used when its placeholder may be. -/
@[reducible] def Admits (pairing : Pairing) (work work' : Work) (ty : Ty) : Prop :=
  pairing.sound work work' (.undef ty)

/-! ### Two ways to end -/

section Both

variable {σ τ α β γ δ : Type} {pairing : Pairing}

/-- How two steps end beside each other: both return as `post` says, or both fail as they may, or
the first was halted. -/
def Outcome (pairing : Pairing) (post : α → σ → β → τ → Prop) :
    EStateM.Result Error σ α → EStateM.Result Error τ β → Prop
  | .ok result after, .ok result' after' => post result after result' after'
  | .error cause _, .error cause' _ => pairing.excused cause cause' ∨ pairing.halts cause
  | .error cause _, .ok _ _ => pairing.halts cause
  | .ok _ _, .error _ _ => False

theorem Outcome.mono {post post' : α → σ → β → τ → Prop} {first : EStateM.Result Error σ α}
    {second : EStateM.Result Error τ β} (outcome : pairing.Outcome post first second)
    (weaker : ∀ result after result' after', post result after result' after' →
      post' result after result' after') : pairing.Outcome post' first second := by
  cases first <;> cases second
  · exact weaker _ _ _ _ outcome
  all_goals exact outcome

/-- A run that was halted may be beside anything. -/
theorem Outcome.of_halts {post : α → σ → β → τ → Prop} {cause : Error} {after : σ}
    (halted : pairing.halts cause) (second : EStateM.Result Error τ β) :
    pairing.Outcome post (.error cause after) second := by
  cases second
  · exact halted
  · exact .inr halted

/-- What follows two steps that end beside each other ends so too. -/
theorem Outcome.bind {action : EStateM Error σ α} {action' : EStateM Error τ β}
    {next : α → EStateM Error σ γ} {next' : β → EStateM Error τ δ} {state : σ} {state' : τ}
    {first : α → σ → β → τ → Prop} {post : γ → σ → δ → τ → Prop}
    (part : pairing.Outcome first (action state) (action' state'))
    (rest : ∀ result after result' after', first result after result' after' →
      pairing.Outcome post (next result after) (next' result' after')) :
    pairing.Outcome post ((action >>= next) state) ((action' >>= next') state') := by
  change pairing.Outcome post (EStateM.bind action next state) (EStateM.bind action' next' state')
  unfold EStateM.bind
  cases ended : action state with
  | ok result after =>
    cases ended' : action' state' with
    | ok result' after' =>
      rw [ended, ended'] at part
      exact rest _ _ _ _ part
    | error cause' after' =>
      rw [ended, ended'] at part
      exact part.elim
  | error cause after =>
    cases ended' : action' state' with
    | ok result' after' =>
      rw [ended, ended'] at part
      exact .of_halts part _
    | error cause' after' =>
      rw [ended, ended'] at part
      exact part

end Both

/-! ### Rules -/

/-- Something of type `ty` may be used through `address`. -/
structure Homes (pairing : Pairing) (work work' : Work) (address : Value) (ty : Ty) : Prop where
  typed : pairing.typed address ty
  address : pairing.sound work work' address
  content : pairing.Admits work work' ty

/-- What is bound may be used, and a slot is the address of what it holds. -/
def Fine (pairing : Pairing) (work work' : Work) : Binding → Prop
  | .value value | .param value => pairing.sound work work' value
  | .slot address ty _ => pairing.Homes work work' address ty

/-- What holds at every point of the two runs. -/
structure Rules (pairing : Pairing) (scope : ScopeId) (context context' : Context) : Prop where
  holds : pairing.holds context.work context'.work
  env : context'.env = context.env
  here : context.scope = scope
  here' : context'.scope = scope
  bound : ∀ table ∈ context.env.scopes, ∀ entry ∈ table,
    pairing.bindable entry.1 entry.2 ∧ pairing.Fine context.work context'.work entry.2

/-- Values that could be used can be used later. -/
def Later (pairing : Pairing) (context context' after after' : Context) : Prop :=
  ∀ value, pairing.sound context.work context'.work value →
    pairing.sound after.work after'.work value

/-- Both actions keep to the pairing. -/
def Matches {α β : Type} (pairing : Pairing) (scope : ScopeId) (action : LowerM α)
    (action' : LowerM β) (context context' : Context)
    (post : α → β → Context → Context → Prop) : Prop :=
  pairing.Rules scope context context' →
    pairing.Outcome (fun result after result' after' => pairing.Rules scope after after' ∧
      pairing.Later context context' after after' ∧ post result result' after after')
      (action context) (action' context')

/-- Both actions keep to the pairing and return the same. -/
def Agrees {α : Type} (pairing : Pairing) (scope : ScopeId) (action action' : LowerM α)
    (context context' : Context) (post : α → Context → Context → Prop) : Prop :=
  pairing.Matches scope action action' context context' fun result result' after after' =>
    result' = result ∧ post result after after'

/-- The value may be used. -/
def Yields (pairing : Pairing) (value : Value) (after after' : Context) : Prop :=
  pairing.sound after.work after'.work value

/-- The place may be used. -/
def Places (pairing : Pairing) (place : Place) (after after' : Context) : Prop :=
  pairing.Homes after.work after'.work place.address place.ty

variable {α β γ δ : Type} {pairing : Pairing} {scope : ScopeId} {context context' : Context}

theorem Homes.later {after after' : Context} {address : Value} {ty : Ty}
    (homes : pairing.Homes context.work context'.work address ty)
    (later : pairing.Later context context' after after') :
    pairing.Homes after.work after'.work address ty :=
  ⟨homes.typed, later _ homes.address, later _ homes.content⟩

theorem Fine.later {after after' : Context} {binding : Binding}
    (fine : pairing.Fine context.work context'.work binding)
    (later : pairing.Later context context' after after') :
    pairing.Fine after.work after'.work binding := by
  cases binding with
  | value value => exact later _ fine
  | param value => exact later _ fine
  | slot address ty mutable => exact Homes.later fine later

/-- What a name is bound to may be used. -/
theorem Rules.resolved (rules : pairing.Rules scope context context') {name : Name}
    {binding : Binding} (found : context.env.resolve? name = some binding) :
    pairing.bindable name binding ∧ pairing.Fine context.work context'.work binding := by
  obtain ⟨table, member, stored⟩ := List.exists_of_findSome?_eq_some found
  obtain ⟨before, after, rfl, _⟩ := List.lookup_eq_some_iff.1 stored
  exact rules.bound _ member (name, binding)
    (List.mem_append_right _ List.mem_cons_self)

/-! ### Sequences -/

theorem Matches.mono {action : LowerM α} {action' : LowerM β}
    {post post' : α → β → Context → Context → Prop}
    (paired : pairing.Matches scope action action' context context' post)
    (weaker : ∀ result result' after after', pairing.Later context context' after after' →
      post result result' after after' → post' result result' after after') :
    pairing.Matches scope action action' context context' post' := fun rules =>
  (paired rules).mono fun result after result' after' ⟨rules', later, holds⟩ =>
    ⟨rules', later, weaker result result' after after' later holds⟩

theorem Agrees.mono {action action' : LowerM α} {post post' : α → Context → Context → Prop}
    (paired : pairing.Agrees scope action action' context context' post)
    (weaker : ∀ result after after', pairing.Later context context' after after' →
      post result after after' → post' result after after') :
    pairing.Agrees scope action action' context context' post' :=
  Matches.mono paired fun result _ after after' later ⟨same, holds⟩ =>
    ⟨same, weaker result after after' later holds⟩

theorem Matches.bind {action : LowerM α} {action' : LowerM β} {next : α → LowerM γ}
    {next' : β → LowerM δ} {first : α → β → Context → Context → Prop}
    {post : γ → δ → Context → Context → Prop}
    (part : pairing.Matches scope action action' context context' first)
    (rest : ∀ result result' after after', pairing.Later context context' after after' →
      first result result' after after' →
      pairing.Matches scope (next result) (next' result') after after' post) :
    pairing.Matches scope (action >>= next) (action' >>= next') context context' post :=
  fun rules => (part rules).bind fun result after result' after' ⟨rules', later, holds⟩ =>
    (rest result result' after after' later holds rules').mono
      fun _ _ _ _ ⟨rules'', later', holds'⟩ =>
        ⟨rules'', fun value sound => later' value (later value sound), holds'⟩

theorem Agrees.bind {action action' : LowerM α} {next : α → LowerM γ} {next' : α → LowerM δ}
    {first : α → Context → Context → Prop} {post : γ → δ → Context → Context → Prop}
    (part : pairing.Agrees scope action action' context context' first)
    (rest : ∀ result after after', pairing.Later context context' after after' →
      first result after after' →
      pairing.Matches scope (next result) (next' result) after after' post) :
    pairing.Matches scope (action >>= next) (action' >>= next') context context' post :=
  Matches.bind part fun result _ after after' later ⟨same, holds⟩ =>
    same ▸ rest result after after' later holds

theorem Matches.pure {result : α} {result' : β} {post : α → β → Context → Context → Prop}
    (holds : post result result' context context') :
    pairing.Matches scope (pure result) (pure result') context context' post :=
  fun rules => ⟨rules, fun _ => id, holds⟩

theorem Agrees.pure {result : α} {post : α → Context → Context → Prop}
    (holds : post result context context') :
    pairing.Agrees scope (pure result) (pure result) context context' post :=
  Matches.pure ⟨rfl, holds⟩

theorem Matches.throw {cause cause' : Error} {post : α → β → Context → Context → Prop}
    (excused : pairing.excused cause cause') :
    pairing.Matches scope (throw cause) (throw cause') context context' post :=
  fun _ => .inl excused

/-- The rules hold wherever a comparison starts. -/
theorem Matches.of_rules {action : LowerM α} {action' : LowerM β}
    {post : α → β → Context → Context → Prop}
    (paired : pairing.Rules scope context context' →
      pairing.Matches scope action action' context context' post) :
    pairing.Matches scope action action' context context' post :=
  fun rules => paired rules rules

/-- A question about the state. -/
theorem Matches.read {question : Context → α} {question' : Context → β} :
    pairing.Matches scope (do return question (← get)) (do return question' (← get)) context
      context' fun answer answer' after after' => answer = question context ∧
        answer' = question' context' ∧ after = context ∧ after' = context' ∧
        pairing.Rules scope context context' :=
  fun rules => ⟨rules, fun _ => id, rfl, rfl, rfl, rfl, rules⟩

theorem Matches.get :
    pairing.Matches scope get get context context' fun found found' after after' =>
      found = context ∧ found' = context' ∧ after = context ∧ after' = context' ∧
        pairing.Rules scope context context' :=
  fun rules => ⟨rules, fun _ => id, rfl, rfl, rfl, rfl, rules⟩

theorem Matches.discard {action : LowerM α} {action' : LowerM β}
    {post : Unit → Unit → Context → Context → Prop}
    (paired : pairing.Matches scope action action' context context' fun _ _ => post () ()) :
    pairing.Matches scope (discard action) (discard action') context context' post := by
  have unfolded : ∀ {γ : Type} (action : LowerM γ),
      Functor.discard action = action >>= fun _ => Pure.pure () := by
    intro γ action
    rw [Functor.discard, map_const, Function.comp_apply, bind_pure_comp]
  rw [unfolded, unfolded]
  exact paired.bind fun _ _ _ _ _ holds => .pure holds

theorem Agrees.forM {items : List β} {action action' : β → LowerM PUnit}
    (each : ∀ item ∈ items, ∀ context context',
      pairing.Agrees scope (action item) (action' item) context context' fun _ _ _ => True) :
    pairing.Agrees scope (items.forM action) (items.forM action') context context'
      fun _ _ _ => True := by
  induction items generalizing context context' with
  | nil => exact .pure trivial
  | cons item rest inductionHypothesis =>
    refine (each item List.mem_cons_self context context').bind fun _ _ _ _ _ => ?_
    exact inductionHypothesis fun item member => each item (List.mem_cons_of_mem _ member)

/-! ### Parts of the state -/

/-- Two steps of the builder keep to the pairing. -/
def Steps (pairing : Pairing) (action : BuildM α) (action' : BuildM β) (work work' : Work)
    (post : α → β → Prop) : Prop :=
  pairing.Outcome (fun result after result' after' =>
    pairing.holds { work with builder := after } { work' with builder := after' } ∧
      (∀ value, pairing.sound work work' value →
        pairing.sound { work with builder := after } { work' with builder := after' } value) ∧
      post result result') (action work.builder) (action' work'.builder)

theorem Steps.mono {action : BuildM α} {action' : BuildM β} {work work' : Work}
    {post post' : α → β → Prop} (steps : pairing.Steps action action' work work' post)
    (weaker : ∀ result result', post result result' → post' result result') :
    pairing.Steps action action' work work' post' :=
  Outcome.mono steps fun result _ result' _ ⟨holds, later, answered⟩ =>
    ⟨holds, later, weaker result result' answered⟩

theorem Steps.bind {action : BuildM α} {action' : BuildM β} {next : α → BuildM γ}
    {next' : β → BuildM δ} {work work' : Work} {first : α → β → Prop} {post : γ → δ → Prop}
    (part : pairing.Steps action action' work work' first)
    (rest : ∀ result result' builder builder',
      pairing.holds { work with builder } { work' with builder := builder' } →
      (∀ value, pairing.sound work work' value →
        pairing.sound { work with builder } { work' with builder := builder' } value) →
      first result result' →
      pairing.Steps (next result) (next' result') { work with builder }
        { work' with builder := builder' } post) :
    pairing.Steps (action >>= next) (action' >>= next') work work' post :=
  Outcome.bind part fun result after result' after' ⟨holds, later, answered⟩ =>
    Outcome.mono (rest result result' after after' holds later answered)
      fun _ _ _ _ ⟨holds', later', answered'⟩ =>
        ⟨holds', fun value sound => later' value (later value sound), answered'⟩

theorem Steps.get {next : Builder → BuildM α} {next' : Builder → BuildM β} {work work' : Work}
    {post : α → β → Prop}
    (rest : pairing.Steps (next work.builder) (next' work'.builder) work work' post) :
    pairing.Steps (get >>= next) (get >>= next') work work' post := rest

theorem Steps.pure {result : α} {result' : β} {work work' : Work} {post : α → β → Prop}
    (holds : pairing.holds work work') (answered : post result result') :
    pairing.Steps (pure result) (pure result') work work' post :=
  ⟨holds, fun _ => id, answered⟩

/-- Changes of what was made leave the environment as it is. -/
theorem Rules.work (rules : pairing.Rules scope context context') {after after' : Context}
    (holds : pairing.holds after.work after'.work)
    (later : pairing.Later context context' after after') (env : after.env = context.env)
    (env' : after'.env = context'.env) (here : after.scope = context.scope)
    (here' : after'.scope = context'.scope) : pairing.Rules scope after after' := by
  refine ⟨holds, by rw [env, env', rules.env], here.trans rules.here, here'.trans rules.here',
    fun table member entry listed => ?_⟩
  rw [env] at member
  obtain ⟨bindable, fine⟩ := rules.bound table member entry listed
  exact ⟨bindable, fine.later later⟩

theorem Matches.build {action : BuildM α} {action' : BuildM β} {answer : α → β → Prop}
    (steps : pairing.holds context.work context'.work →
      pairing.Steps action action' context.work context'.work answer) :
    pairing.Matches scope (build action) (build action') context context'
      fun result result' _ _ => answer result result' := by
  intro rules
  have stepped := steps rules.holds
  obtain ⟨builder, env, memo, strings, here⟩ := context
  obtain ⟨builder', env', memo', strings', here'⟩ := context'
  simp only [Steps, Context.work] at stepped
  simp only [Lowering.build]
  cases ended : action builder with
  | ok result after =>
    cases ended' : action' builder' with
    | ok result' after' =>
      rw [ended, ended'] at stepped
      obtain ⟨holds, later, answered⟩ := stepped
      exact ⟨rules.work holds later rfl rfl rfl rfl, later, answered⟩
    | error cause' after' =>
      rw [ended, ended'] at stepped
      exact stepped.elim
  | error cause after =>
    cases ended' : action' builder' with
    | ok result' after' =>
      rw [ended, ended'] at stepped
      exact stepped
    | error cause' after' =>
      rw [ended, ended'] at stepped
      exact stepped

theorem Matches.mapping {action : TypeM α} {action' : TypeM β}
    {answer : α → β → Context → Context → Prop}
    (steps : pairing.holds context.work context'.work →
      pairing.Outcome (fun result after result' after' =>
        pairing.holds (context.work.mapped after) (context'.work.mapped after') ∧
          (∀ value, pairing.sound context.work context'.work value →
            pairing.sound (context.work.mapped after) (context'.work.mapped after') value) ∧
          ∀ later later', later.work = context.work.mapped after →
            later'.work = context'.work.mapped after' → answer result result' later later')
        (action ⟨context.memo, context.builder.target⟩)
        (action' ⟨context'.memo, context'.builder.target⟩)) :
    pairing.Matches scope (mapping action) (mapping action') context context' answer := by
  intro rules
  have stepped := steps rules.holds
  unfold Lowering.mapping
  cases ended : action ⟨context.memo, context.builder.target⟩ with
  | ok result after =>
    cases ended' : action' ⟨context'.memo, context'.builder.target⟩ with
    | ok result' after' =>
      rw [ended, ended'] at stepped
      obtain ⟨holds, later, answered⟩ := stepped
      exact ⟨rules.work holds later rfl rfl rfl rfl, later, answered _ _ rfl rfl⟩
    | error cause' after' =>
      rw [ended, ended'] at stepped
      exact stepped.elim
  | error cause after =>
    cases ended' : action' ⟨context'.memo, context'.builder.target⟩ with
    | ok result' after' =>
      rw [ended, ended'] at stepped
      exact stepped
    | error cause' after' =>
      rw [ended, ended'] at stepped
      exact stepped

/-- The same name is bound to the same in both runs. -/
theorem Agrees.bindName {name : Name} {binding : Binding}
    (bindable : pairing.bindable name binding)
    (fine : pairing.Fine context.work context'.work binding) :
    pairing.Agrees scope (modifyEnv fun env => env.bind name binding)
      (modifyEnv fun env => env.bind name binding) context context' fun _ _ _ => True := by
  intro rules
  have env : context'.env.bind name binding = context.env.bind name binding := by rw [rules.env]
  refine ⟨⟨rules.holds, env, rules.here, rules.here', fun table member entry listed => ?_⟩,
    fun _ => id, rfl, trivial⟩
  have old := rules.bound
  change table ∈ (context.env.bind name binding).scopes at member
  unfold Env.bind at member
  cases tables : context.env.scopes with
  | nil =>
    rw [tables] at member
    obtain rfl := List.mem_singleton.1 member
    obtain rfl := List.mem_singleton.1 listed
    exact ⟨bindable, fine⟩
  | cons first outer =>
    rw [tables] at member old
    rcases List.mem_cons.1 member with rfl | outside
    · rcases List.mem_cons.1 listed with rfl | earlier
      · exact ⟨bindable, fine⟩
      · exact old first List.mem_cons_self entry earlier
    · exact old table (List.mem_cons_of_mem _ outside) entry listed

/-! ### Brackets -/

/-- What is done around two actions is the same in both runs. -/
theorem Outcome.around {action : LowerM α} {action' : LowerM β}
    {first post : α → Context → β → Context → Prop} (leave leave' : Context → Context)
    (part : pairing.Outcome first (action context) (action' context'))
    (back : ∀ result after result' after', first result after result' after' →
      post result (leave after) result' (leave' after')) :
    pairing.Outcome post
      (match action context with
        | .ok result after => .ok result (leave after)
        | .error cause after => .error cause (leave after))
      (match action' context' with
        | .ok result after => .ok result (leave' after)
        | .error cause after => .error cause (leave' after)) := by
  cases ended : action context with
  | ok result after =>
    cases ended' : action' context' with
    | ok result' after' =>
      rw [ended, ended'] at part
      exact back _ _ _ _ part
    | error cause' after' =>
      rw [ended, ended'] at part
      exact part.elim
  | error cause after =>
    cases ended' : action' context' with
    | ok result' after' =>
      rw [ended, ended'] at part
      exact part
    | error cause' after' =>
      rw [ended, ended'] at part
      exact part

theorem Agrees.inScope {inner : ScopeId} {action action' : LowerM α}
    (post : α → Work → Work → Prop)
    (paired : pairing.Agrees inner action action' (context.enterScope inner)
      (context'.enterScope inner) fun result after after' => post result after.work after'.work) :
    pairing.Agrees scope (inScope inner action) (inScope inner action') context context'
      fun result after after' => post result after.work after'.work := by
  intro rules
  have entered : pairing.Rules inner (context.enterScope inner) (context'.enterScope inner) := by
    refine ⟨rules.holds, ?_, rfl, rfl, fun table member entry listed => ?_⟩
    · exact congrArg Env.enterScope rules.env
    · rcases List.mem_cons.1 member with rfl | outside
      · cases listed
      · exact rules.bound table outside entry listed
  refine Outcome.around (·.leaveScope context.scope) (·.leaveScope context'.scope) (paired entered)
    fun result after result' after' ⟨rules', later, holds⟩ => ?_
  refine ⟨⟨rules'.holds, congrArg Env.leaveScope rules'.env, rules.here, rules.here',
    fun table member => ?_⟩, later, holds⟩
  exact rules'.bound table (List.mem_of_mem_tail member)

/-- Functions and loops are entered without a change to what names are bound to. -/
theorem Agrees.inFrame {action action' : LowerM α} (post : α → Work → Work → Prop)
    (whole : LowerM α → LowerM α) (enter leave : Env → Env)
    (opens : ∀ action context, whole action context =
      match action { context with env := enter context.env } with
      | .ok result after => .ok result { after with env := leave after.env }
      | .error cause after => .error cause { after with env := leave after.env })
    (enters : ∀ env, (enter env).scopes = env.scopes)
    (leaves : ∀ env, (leave env).scopes = env.scopes)
    (paired : pairing.Agrees scope action action' { context with env := enter context.env }
      { context' with env := enter context'.env } fun result after after' =>
        post result after.work after'.work) :
    pairing.Agrees scope (whole action) (whole action') context context'
      fun result after after' => post result after.work after'.work := by
  intro rules
  have entered : pairing.Rules scope { context with env := enter context.env }
      { context' with env := enter context'.env } := by
    refine ⟨rules.holds, congrArg enter rules.env, rules.here, rules.here', fun table member => ?_⟩
    exact rules.bound table (enters _ ▸ member)
  rw [opens, opens]
  refine Outcome.around (fun after => { after with env := leave after.env })
    (fun after => { after with env := leave after.env }) (paired entered)
    fun result after result' after' ⟨rules', later, holds⟩ => ?_
  refine ⟨⟨rules'.holds, congrArg leave rules'.env, rules'.here, rules'.here',
    fun table member => ?_⟩, later, holds⟩
  exact rules'.bound table (leaves _ ▸ member)

theorem Agrees.inFunction {ret : Ty} {action action' : LowerM α}
    (post : α → Work → Work → Prop)
    (paired : pairing.Agrees scope action action'
      { context with env := context.env.pushFunction ret }
      { context' with env := context'.env.pushFunction ret } fun result after after' =>
        post result after.work after'.work) :
    pairing.Agrees scope (inFunction ret action) (inFunction ret action') context context'
      fun result after after' => post result after.work after'.work :=
  Agrees.inFrame post (Lowering.inFunction ret) (·.pushFunction ret) Env.popFunction (fun _ _ => rfl)
    (fun _ => rfl) (fun _ => rfl) paired

theorem Agrees.inLoop {targets : LoopTargets} {action action' : LowerM α}
    (post : α → Work → Work → Prop)
    (paired : pairing.Agrees scope action action'
      { context with env := context.env.pushLoop targets }
      { context' with env := context'.env.pushLoop targets } fun result after after' =>
        post result after.work after'.work) :
    pairing.Agrees scope (inLoop targets action) (inLoop targets action') context context'
      fun result after after' => post result after.work after'.work :=
  Agrees.inFrame post (Lowering.inLoop targets) (·.pushLoop targets) Env.popLoop (fun _ _ => rfl)
    (fun _ => Env.scopes_modifyFrame ..) (fun _ => Env.scopes_modifyFrame ..) paired

end Pairing

end TreeLowering.Lowering
