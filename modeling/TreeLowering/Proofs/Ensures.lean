/-
This file defines how the steps of a lowering run are reasoned about. `Ensures action state post`
says that `action`, started in `state`, either ends as `post` describes or stops with an error that
is not a misstep of lowering itself. Sequences, scopes, loops and dead code each have a rule that
takes a claim about the whole apart into claims about its parts.
-/

import Mathlib.Data.List.Forall2
import TreeLowering.Lowering.Program

namespace TreeLowering.Lowering

open TreeLowering.Ir TreeLowering.Tree

/-- The errors that no program can cause and only a mistake of lowering itself could: emitting
without a cursor, returning outside of a function, and using a block or function that is closed or
does not exist. -/
def Error.isMisstep : Error → Bool
  | noInsertionPoint | returnOutsideFunction _ => true
  | ir (.blockTerminated _) | ir (.unknownBlock ..) | ir (.unknownFunction _) => true
  | _ => false

/-- The action ends as `post` says, or stops with an error that is no misstep. -/
def Ensures {σ α : Type} (action : EStateM Error σ α) (state : σ) (post : α → σ → Prop) : Prop :=
  match action state with
  | .ok result after => post result after
  | .error cause _ => cause.isMisstep = false

section Rules

variable {σ α β : Type} {state : σ}

theorem Ensures.mono {action : EStateM Error σ α} {post post' : α → σ → Prop}
    (ensured : Ensures action state post)
    (weaker : ∀ result after, post result after → post' result after) :
    Ensures action state post' := by
  unfold Ensures at *
  split at ensured <;> simp_all

/-- What an action ensures holds whenever it returns. -/
theorem Ensures.of_ok {action : EStateM Error σ α} {post : α → σ → Prop} {result : α} {after : σ}
    (ensured : Ensures action state post) (returned : action state = .ok result after) :
    post result after := by
  unfold Ensures at ensured
  rwa [returned] at ensured

@[simp] theorem ensures_bind (action : EStateM Error σ α) (next : α → EStateM Error σ β)
    (post : β → σ → Prop) :
    Ensures (action >>= next) state post ↔
      Ensures action state fun result after => Ensures (next result) after post := by
  unfold Ensures
  change (match EStateM.bind action next state with
    | .ok result after => post result after
    | .error cause _ => cause.isMisstep = false) ↔ _
  cases returned : action state <;> simp only [EStateM.bind, returned]

@[simp] theorem ensures_pure (result : α) (post : α → σ → Prop) :
    Ensures (pure result) state post ↔ post result state := Iff.rfl

@[simp] theorem ensures_throw (cause : Error) (post : α → σ → Prop) :
    Ensures (throw cause) state post ↔ cause.isMisstep = false := Iff.rfl

@[simp] theorem ensures_get (post : σ → σ → Prop) :
    Ensures get state post ↔ post state state := Iff.rfl

@[simp] theorem ensures_modify (change : σ → σ) (post : Unit → σ → Prop) :
    Ensures (modify change) state post ↔ post () (change state) := Iff.rfl

@[simp] theorem ensures_discard (action : EStateM Error σ α) (post : Unit → σ → Prop) :
    Ensures (discard action) state post ↔ Ensures action state fun _ after => post () after := by
  have unfolded : discard action = action >>= fun _ => pure () := by
    rw [discard, map_const, Function.comp_apply, bind_pure_comp]
  rw [unfolded, ensures_bind]
  exact Iff.rfl

/-- An action that never stops with a misstep and keeps a relation between states keeps it along a
list. -/
theorem ensures_forM {items : List β} {action : β → EStateM Error σ PUnit} {relation : σ → σ → Prop}
    (refl : ∀ state, relation state state)
    (trans : ∀ {first second third}, relation first second → relation second third →
      relation first third)
    (each : ∀ item ∈ items, ∀ state, Ensures (action item) state fun _ after =>
      relation state after) :
    Ensures (items.forM action) state fun _ after => relation state after := by
  induction items generalizing state with
  | nil => exact refl state
  | cons item rest inductionHypothesis =>
    show Ensures (action item >>= fun _ => rest.forM action) state _
    rw [ensures_bind]
    refine (each item List.mem_cons_self state).mono fun _ middle first => ?_
    refine (inductionHypothesis fun item member =>
      each item (List.mem_cons_of_mem _ member)).mono fun _ after second => ?_
    exact trans first second

theorem ensures_mapM {items : List β} {action : β → EStateM Error σ α} {relation : σ → σ → Prop}
    (refl : ∀ state, relation state state)
    (trans : ∀ {first second third}, relation first second → relation second third →
      relation first third)
    (each : ∀ item ∈ items, ∀ state, Ensures (action item) state fun _ after =>
      relation state after) :
    Ensures (items.mapM action) state fun _ after => relation state after := by
  induction items generalizing state with
  | nil => exact refl state
  | cons item rest inductionHypothesis =>
    rw [List.mapM_cons, ensures_bind]
    refine (each item List.mem_cons_self state).mono fun _ middle first => ?_
    rw [ensures_bind]
    refine (inductionHypothesis fun item member =>
      each item (List.mem_cons_of_mem _ member)).mono fun _ after second => ?_
    exact trans first second

end Rules

/-! ### Both ways to end -/

/-- The action returns as `post` says, or fails as `lapse` says. -/
def Ends {σ α : Type} (action : EStateM Error σ α) (state : σ) (post : α → σ → Prop)
    (lapse : Error → σ → Prop) : Prop :=
  match action state with
  | .ok result after => post result after
  | .error cause after => lapse cause after

section Ends

variable {σ α β : Type} {state : σ} {lapse : Error → σ → Prop}

theorem Ends.mono {action : EStateM Error σ α} {post post' : α → σ → Prop}
    {lapse' : Error → σ → Prop} (ends : Ends action state post lapse)
    (weaker : ∀ result after, post result after → post' result after)
    (weaker' : ∀ cause after, lapse cause after → lapse' cause after) :
    Ends action state post' lapse' := by
  unfold Ends at *
  cases ended : action state <;> simp_all

theorem Ends.of_ok {action : EStateM Error σ α} {post : α → σ → Prop} {result : α} {after : σ}
    (ends : Ends action state post lapse) (returned : action state = .ok result after) :
    post result after := by
  unfold Ends at ends
  rwa [returned] at ends

theorem Ends.of_error {action : EStateM Error σ α} {post : α → σ → Prop} {cause : Error}
    {after : σ} (ends : Ends action state post lapse)
    (failed : action state = .error cause after) : lapse cause after := by
  unfold Ends at ends
  rwa [failed] at ends

/-- What two accounts say of one action holds together. -/
theorem Ends.and {action : EStateM Error σ α} {post post' : α → σ → Prop}
    {lapse' : Error → σ → Prop} (first : Ends action state post lapse)
    (second : Ends action state post' lapse') :
    Ends action state (fun result after => post result after ∧ post' result after)
      fun cause after => lapse cause after ∧ lapse' cause after := by
  unfold Ends at *
  cases ended : action state <;> simp_all

/-- What is ensured says how both ways end. -/
theorem Ensures.ends {action : EStateM Error σ α} {post : α → σ → Prop}
    (ensured : Ensures action state post) :
    Ends action state post fun cause _ => cause.isMisstep = false := ensured

theorem ends_bind {action : EStateM Error σ α} {next : α → EStateM Error σ β}
    {post : β → σ → Prop} :
    Ends (action >>= next) state post lapse ↔
      Ends action state (fun result after => Ends (next result) after post lapse) lapse := by
  have unfolded : (action >>= next) state = EStateM.bind action next state := rfl
  unfold Ends
  rw [unfolded, EStateM.bind]
  cases action state <;> rfl

theorem Ends.discard {action : EStateM Error σ α} {post : Unit → σ → Prop}
    (ends : Ends action state (fun _ => post ()) lapse) :
    Ends (discard action) state post lapse := by
  have unfolded : Functor.discard action = action >>= fun _ => pure () := by
    rw [Functor.discard, map_const, Function.comp_apply, bind_pure_comp]
  rw [unfolded, ends_bind]
  exact ends

theorem ends_get {post : σ → σ → Prop} : Ends get state post lapse ↔ post state state := Iff.rfl

/-- Along a list, what each step keeps is kept. -/
theorem Ends.forM {items : List β} {action : β → EStateM Error σ PUnit} {invariant : σ → Prop}
    (each : ∀ item ∈ items, ∀ state, invariant state →
      Ends (action item) state (fun _ => invariant) lapse) (holds : invariant state) :
    Ends (items.forM action) state (fun _ => invariant) lapse := by
  induction items generalizing state with
  | nil => exact holds
  | cons item rest inductionHypothesis =>
    show Ends (action item >>= fun _ => rest.forM action) state _ _
    rw [ends_bind]
    refine (each item List.mem_cons_self state holds).mono (fun _ middle kept => ?_)
      fun _ _ => id
    exact inductionHypothesis (fun item member => each item (List.mem_cons_of_mem _ member)) kept

/-- Along a list, what each step keeps is kept, and what it answers is collected. -/
theorem Ends.mapM {items : List β} {action : β → EStateM Error σ α} {invariant : σ → Prop}
    {answer : β → α → Prop}
    (each : ∀ item ∈ items, ∀ state, invariant state →
      Ends (action item) state (fun result after => invariant after ∧ answer item result) lapse)
    (holds : invariant state) :
    Ends (items.mapM action) state
      (fun results after => invariant after ∧ List.Forall₂ answer items results) lapse := by
  induction items generalizing state with
  | nil => exact ⟨holds, .nil⟩
  | cons item rest inductionHypothesis =>
    rw [List.mapM_cons, ends_bind]
    refine (each item List.mem_cons_self state holds).mono (fun result middle kept => ?_)
      fun _ _ => id
    rw [ends_bind]
    refine (inductionHypothesis (fun item member => each item (List.mem_cons_of_mem _ member))
      kept.1).mono (fun results after kept' => ?_) fun _ _ => id
    exact ⟨kept'.1, .cons kept.2 kept'.2⟩

end Ends

/-! ### Steps that may fail in any way -/

section Returns

variable {σ α β : Type} {state : σ}

/-- If the action returns, it ends as `post` says. -/
def Returns (action : EStateM Error σ α) (state : σ) (post : α → σ → Prop) : Prop :=
  ∀ result after, action state = .ok result after → post result after

theorem Returns.mono {action : EStateM Error σ α} {post post' : α → σ → Prop}
    (returns : Returns action state post)
    (weaker : ∀ result after, post result after → post' result after) :
    Returns action state post' :=
  fun result after returned => weaker result after (returns result after returned)

/-- A step that returns ends as it returns, or it fails. -/
theorem Returns.ends {action : EStateM Error σ α} {post : α → σ → Prop}
    (returns : Returns action state post) : Ends action state post fun _ _ => True := by
  unfold Ends
  cases ended : action state with
  | ok result after => exact returns result after ended
  | error cause after => exact trivial

theorem returns_bind {action : EStateM Error σ α} {next : α → EStateM Error σ β}
    {post : β → σ → Prop} :
    Returns (action >>= next) state post ↔
      Returns action state fun result after => Returns (next result) after post := by
  have unfolded : (action >>= next) state = EStateM.bind action next state := rfl
  unfold Returns
  rw [unfolded, EStateM.bind]
  cases action state with
  | ok middle between => simp
  | error cause between => simp

theorem returns_pure {result : α} {post : α → σ → Prop} :
    Returns (pure result) state post ↔ post result state :=
  ⟨fun returns => returns result state rfl, fun holds _ _ returned => by
    cases returned
    exact holds⟩

theorem returns_get {post : σ → σ → Prop} : Returns get state post ↔ post state state :=
  ⟨fun returns => returns state state rfl, fun holds _ _ returned => by
    cases returned
    exact holds⟩

theorem returns_modify {change : σ → σ} {post : Unit → σ → Prop} :
    Returns (modify change) state post ↔ post () (change state) :=
  ⟨fun returns => returns () (change state) rfl, fun holds _ _ returned => by
    cases returned
    exact holds⟩

end Returns

/-! ### Parts of the state -/

section Parts

variable {α β : Type} {context : Context}

@[simp] theorem ensures_build (action : BuildM α) (post : α → Context → Prop) :
    Ensures (build action) context post ↔
      Ensures action context.builder fun result builder =>
        post result { context with builder } := by
  obtain ⟨builder, env, memo, strings, scope⟩ := context
  unfold Ensures build
  simp only
  cases action builder <;> rfl

@[simp] theorem ensures_mapping (action : TypeM α) (post : α → Context → Prop) :
    Ensures (mapping action) context post ↔
      Ensures action ⟨context.memo, context.builder.target⟩ fun result after =>
        post result { context with
          memo := after.memo, builder := { context.builder with target := after.target } } := by
  unfold Ensures mapping
  cases action ⟨context.memo, context.builder.target⟩ <;> rfl

@[simp] theorem ensures_modifyEnv (change : Env → Env) (post : Unit → Context → Prop) :
    Ensures (modifyEnv change) context post ↔
      post () { context with env := change context.env } := Iff.rfl

@[simp] theorem ensures_isLive (post : Bool → Context → Prop) :
    Ensures isLive context post ↔ post context.builder.cursor.isSome context := Iff.rfl

@[simp] theorem ensures_localBinding (name : Name) (post : Option Binding → Context → Prop) :
    Ensures (localBinding? name) context post ↔ post (context.env.resolve? name) context := Iff.rfl

@[simp] theorem ensures_resolveSymbol (source : Source) (name : Name) (nameClass : NameClass)
    (post : Option Symbol → Context → Prop) :
    Ensures (resolveSymbol? source name nameClass) context post ↔
      post (source.program.scopes.resolve? context.scope name nameClass) context := Iff.rfl

@[simp] theorem ensures_inScope (scope : ScopeId) (action : LowerM α)
    (post : α → Context → Prop) :
    Ensures (inScope scope action) context post ↔
      Ensures action (context.enterScope scope) fun result after =>
        post result (after.leaveScope context.scope) := by
  unfold Ensures inScope
  cases action (context.enterScope scope) <;> rfl

@[simp] theorem ensures_inFunction (ret : Ty) (action : LowerM α) (post : α → Context → Prop) :
    Ensures (inFunction ret action) context post ↔
      Ensures action { context with env := context.env.pushFunction ret } fun result after =>
        post result { after with env := after.env.popFunction } := by
  unfold Ensures inFunction
  cases action { context with env := context.env.pushFunction ret } <;> rfl

@[simp] theorem ensures_inLoop (targets : LoopTargets) (action : LowerM α)
    (post : α → Context → Prop) :
    Ensures (inLoop targets action) context post ↔
      Ensures action { context with env := context.env.pushLoop targets } fun result after =>
        post result { after with env := after.env.popLoop } := by
  unfold Ensures inLoop
  cases action { context with env := context.env.pushLoop targets } <;> rfl

/-- The rule of dead code: what follows runs only if there still is an open block. -/
theorem ensures_thenLive (dead : β) (action : LowerM α) (next : α → LowerM β)
    (post : β → Context → Prop) :
    Ensures (thenLive dead action next) context post ↔
      Ensures action context fun result after =>
        if after.builder.cursor.isSome then Ensures (next result) after post
        else post dead after := by
  unfold thenLive
  rw [ensures_bind]
  refine ⟨fun ensured => ensured.mono fun result after rest => ?_,
    fun ensured => ensured.mono fun result after rest => ?_⟩
  · rw [ensures_bind, ensures_isLive] at rest
    split <;> simp_all
  · rw [ensures_bind, ensures_isLive]
    split <;> simp_all

end Parts

end TreeLowering.Lowering
