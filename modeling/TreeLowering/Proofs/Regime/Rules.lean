/-
This file defines what it means that a lowering run keeps to a set of rules. A `Regime` says what
holds of the builder and of the remembered types at every point of a run, which errors may end it,
and what its parts can rely on. `Keeps regime view action context post` says that `action` stays
within the regime and gives the environment back, as far as `view` shows it, also when it fails.
Sequences, dead code and the brackets around scopes, loops and functions each have a rule.
-/

import TreeLowering.Proofs.Ensures

namespace TreeLowering.Lowering

open TreeLowering.Ir TreeLowering.Tree

/-- The errors that blame the tree or its types: a tree that contains itself or lacks a part, and a
struct with two field lists. -/
def Error.isFault : Error → Bool
  | malformedTree | ir (.typeConflict ..) => true
  | _ => false

/-- The error that blames a jump which no loop is around. -/
def Error.isStray : Error → Bool
  | outsideLoop .. => true
  | _ => false

/-- The errors that blame neither the tree nor a jump. -/
def Error.isPlain (cause : Error) : Bool := !cause.isFault && !cause.isStray

theorem Error.isFault_of_isPlain {cause : Error} (plain : cause.isPlain = true) :
    cause.isFault = false := by
  rw [isPlain, Bool.and_eq_true, Bool.not_eq_true', Bool.not_eq_true'] at plain
  exact plain.1

theorem Error.isStray_of_isPlain {cause : Error} (plain : cause.isPlain = true) :
    cause.isStray = false := by
  rw [isPlain, Bool.and_eq_true, Bool.not_eq_true', Bool.not_eq_true'] at plain
  exact plain.2

/-! ### Regimes -/

/-- The rules of a lowering run. -/
structure Regime where
  /-- What holds of the builder and the remembered types at every point. -/
  holds : Builder → TypeMemo → Prop
  /-- The errors that may end the run. -/
  excused : Error → Prop
  /-- What holds of the functions and loops around every point. -/
  frames : List Frame → Prop
  /-- The functions that are built. -/
  mine : FuncId → Prop
  /-- The blocks that are built. -/
  own : BlockId → Prop
  /-- The blocks that may be jumped to. -/
  free : BlockId → Prop
  /-- What a resolved type is mapped to. -/
  mapped : TypeId → Ty → Prop
  /-- What an expression yields when control reaches its end. -/
  yields : ExprId → Value → Prop
  /-- What may be joined by a phi. -/
  joins : Ty → List (Value × BlockId) → Prop
  /-- The return types that are in force. -/
  answers : Ty → Prop
  /-- What may be returned. -/
  returns : Option Value → Prop

/-- There is a block to emit into. -/
def Context.Live (context : Context) : Prop := context.builder.cursor.isSome = true

/-- What holds at every point of a run. -/
structure Regime.Rules (regime : Regime) (context : Context) : Prop where
  holds : regime.holds context.builder context.memo
  frames : regime.frames context.env.frames

/-- The scope, the functions and loops around, and what `view` shows of the environment are what
they were. -/
structure Context.Same (view : Env → Env) (before after : Context) : Prop where
  env : view after.env = view before.env
  frames : after.env.frames = before.env.frames
  scope : after.scope = before.scope

theorem Context.Same.refl (view : Env → Env) (context : Context) : context.Same view context :=
  ⟨rfl, rfl, rfl⟩

theorem Context.Same.trans {view : Env → Env} {first second third : Context}
    (earlier : first.Same view second) (later : second.Same view third) :
    first.Same view third :=
  ⟨later.env.trans earlier.env, later.frames.trans earlier.frames,
    later.scope.trans earlier.scope⟩

/-- The action keeps to the rules, and the environment is given back however it ends. -/
def Keeps {α : Type} (regime : Regime) (view : Env → Env) (action : LowerM α) (context : Context)
    (post : α → Context → Prop) : Prop :=
  regime.Rules context →
    Ends action context
      (fun result after => context.Same view after ∧ regime.Rules after ∧ post result after)
      fun cause after => context.Same view after ∧ regime.excused cause

section Keeps

variable {α β : Type} {regime : Regime} {view : Env → Env} {context : Context}

theorem Keeps.mono {action : LowerM α} {post post' : α → Context → Prop}
    (keeps : Keeps regime view action context post)
    (weaker : ∀ result after, post result after → post' result after) :
    Keeps regime view action context post' := fun rules =>
  (keeps rules).mono (fun result after ⟨same, rules', holds⟩ =>
    ⟨same, rules', weaker result after holds⟩) fun _ _ => id

/-- What gives back the whole environment gives back any view of it. -/
theorem Keeps.seen {action : LowerM α} {post : α → Context → Prop}
    (keeps : Keeps regime id action context post) : Keeps regime view action context post :=
  fun rules =>
    have narrow : ∀ after, context.Same id after → context.Same view after := fun _ same =>
      ⟨congrArg view same.env, same.frames, same.scope⟩
    (keeps rules).mono (fun _ after ⟨same, rest⟩ => ⟨narrow after same, rest⟩)
      fun _ after ⟨same, excused⟩ => ⟨narrow after same, excused⟩

theorem Keeps.bind {action : LowerM α} {next : α → LowerM β} {first : α → Context → Prop}
    {post : β → Context → Prop} (part : Keeps regime view action context first)
    (rest : ∀ result after, first result after → Keeps regime view (next result) after post) :
    Keeps regime view (action >>= next) context post := fun rules => by
  rw [ends_bind]
  refine (part rules).mono (fun result _ ⟨same, rules', holds⟩ => ?_) fun _ _ => id
  exact (rest result _ holds rules').mono
    (fun _ _ ⟨same', rest⟩ => ⟨same.trans same', rest⟩)
    fun _ _ ⟨same', excused⟩ => ⟨same.trans same', excused⟩

theorem Keeps.pure {result : α} {post : α → Context → Prop} (holds : post result context) :
    Keeps regime view (pure result) context post :=
  fun rules => ⟨.refl view context, rules, holds⟩

theorem Keeps.throw {cause : Error} {post : α → Context → Prop} (excused : regime.excused cause) :
    Keeps regime view (throw cause) context post :=
  fun _ => ⟨.refl view context, excused⟩

theorem Keeps.get : Keeps regime view get context fun found after =>
    found = context ∧ after = context ∧ regime.Rules context :=
  fun rules => ⟨.refl view context, rules, rfl, rfl, rules⟩

/-- A question about the state. -/
theorem Keeps.read {question : Context → α} :
    Keeps regime view (do return question (← MonadState.get)) context fun answer after =>
      answer = question context ∧ after = context :=
  fun rules => ⟨.refl view context, rules, rfl, rfl⟩

theorem Keeps.isLive : Keeps regime view isLive context fun live after =>
    live = context.builder.cursor.isSome ∧ after = context := Keeps.read

theorem Keeps.discard {action : LowerM α} {post : Unit → Context → Prop}
    (keeps : Keeps regime view action context fun _ => post ()) :
    Keeps regime view (discard action) context post := by
  have unfolded : Functor.discard action = action >>= fun _ => Pure.pure () := by
    rw [Functor.discard, map_const, Function.comp_apply, bind_pure_comp]
  rw [unfolded]
  exact keeps.bind fun _ _ holds => .pure holds

theorem Keeps.forM {items : List β} {action : β → LowerM PUnit}
    (each : ∀ item ∈ items, ∀ context, Keeps regime view (action item) context fun _ _ => True) :
    Keeps regime view (items.forM action) context fun _ _ => True := by
  induction items generalizing context with
  | nil => exact .pure trivial
  | cons item rest inductionHypothesis =>
    refine (each item List.mem_cons_self context).bind fun _ _ _ => ?_
    exact inductionHypothesis fun item member => each item (List.mem_cons_of_mem _ member)

theorem Keeps.mapM {items : List β} {action : β → LowerM α} {answer : β → α → Prop}
    (each : ∀ item ∈ items, ∀ context, Keeps regime view (action item) context fun result after =>
      answer item result ∧ after.builder.cursor = context.builder.cursor) :
    Keeps regime view (items.mapM action) context fun results after =>
      List.Forall₂ answer items results ∧ after.builder.cursor = context.builder.cursor := by
  induction items generalizing context with
  | nil => exact .pure ⟨.nil, rfl⟩
  | cons item rest inductionHypothesis =>
    rw [List.mapM_cons]
    refine (each item List.mem_cons_self context).bind fun _ middle ⟨answered, same⟩ => ?_
    refine (inductionHypothesis fun item member =>
      each item (List.mem_cons_of_mem _ member)).bind fun _ after ⟨others, same'⟩ => ?_
    exact .pure ⟨.cons answered others, same'.trans same⟩

/-! ### Parts of the state -/

/-- A step of the builder: its errors are excused, and what it returns with keeps to the rules. -/
theorem Keeps.build {action : BuildM α} {post : α → Context → Prop}
    (failing : ∀ cause after, action context.builder = .error cause after → regime.excused cause)
    (returning : ∀ result after, regime.holds context.builder context.memo →
      action context.builder = .ok result after →
      regime.holds after context.memo ∧ post result { context with builder := after }) :
    Keeps regime view (build action) context post := by
  intro rules
  obtain ⟨builder, env, memo, strings, scope⟩ := context
  unfold Ends Lowering.build
  simp only
  cases ended : action builder with
  | ok result after =>
    obtain ⟨holds, rest⟩ := returning result after rules.holds ended
    exact ⟨⟨rfl, rfl, rfl⟩, ⟨holds, rules.frames⟩, rest⟩
  | error cause after => exact ⟨⟨rfl, rfl, rfl⟩, failing cause after ended⟩

theorem Keeps.mapping {action : TypeM α} {answer : α → Prop}
    (ends : regime.holds context.builder context.memo →
      Ends action ⟨context.memo, context.builder.target⟩
        (fun result after => regime.holds { context.builder with target := after.target }
          after.memo ∧ answer result) fun cause _ => regime.excused cause) :
    Keeps regime view (mapping action) context fun result after =>
      answer result ∧ after.builder.cursor = context.builder.cursor := by
  intro rules
  have ended := ends rules.holds
  unfold Ends Lowering.mapping at *
  cases returned : action ⟨context.memo, context.builder.target⟩ with
  | ok result after =>
    rw [returned] at ended
    exact ⟨⟨rfl, rfl, rfl⟩, ⟨ended.1, rules.frames⟩, ended.2, rfl⟩
  | error cause after =>
    rw [returned] at ended
    exact ⟨⟨rfl, rfl, rfl⟩, ended⟩

/-- Binding a name changes the innermost scope only. -/
theorem Keeps.bindName {name : Name} {binding : Binding} {post : Unit → Context → Prop}
    (holds : post () { context with env := context.env.bind name binding }) :
    Keeps regime Env.leaveScope (modifyEnv fun env => env.bind name binding) context post :=
  fun rules => ⟨⟨Env.leaveScope_bind .., Env.frames_bind .., rfl⟩,
    ⟨rules.holds, (Env.frames_bind context.env name binding).symm ▸ rules.frames⟩, holds⟩

/-! ### Brackets -/

theorem Keeps.inScope {scope : ScopeId} {action : LowerM α} {post : α → Context → Prop}
    (keeps : Keeps regime Env.leaveScope action (context.enterScope scope) fun result after =>
      post result (after.leaveScope context.scope)) :
    Keeps regime id (inScope scope action) context post := by
  intro rules
  have ended := keeps ⟨rules.holds, rules.frames⟩
  unfold Ends Lowering.inScope at *
  simp only
  cases returned : action (context.enterScope scope) with
  | ok result after =>
    rw [returned] at ended
    obtain ⟨same, rules', holds⟩ := ended
    exact ⟨⟨same.env, same.frames, rfl⟩, ⟨rules'.holds, rules'.frames⟩, holds⟩
  | error cause after =>
    rw [returned] at ended
    obtain ⟨same, excused⟩ := ended
    exact ⟨⟨same.env, same.frames, rfl⟩, excused⟩

theorem Keeps.inFunction {ret : Ty} {action : LowerM α} {post : α → Context → Prop}
    (entered : regime.frames (context.env.pushFunction ret).frames)
    (keeps : Keeps regime id action { context with env := context.env.pushFunction ret }
      fun result after => post result { after with env := after.env.popFunction }) :
    Keeps regime id (inFunction ret action) context post := by
  intro rules
  have back : ∀ after : Context, Context.Same id
      { context with env := context.env.pushFunction ret } after →
        context.Same id { after with env := after.env.popFunction } := fun after same =>
    have env : after.env = context.env.pushFunction ret := same.env
    ⟨by simp [env], by simp [env], same.scope⟩
  have ended := keeps ⟨rules.holds, entered⟩
  unfold Ends Lowering.inFunction at *
  cases returned : action { context with env := context.env.pushFunction ret } with
  | ok result after =>
    rw [returned] at ended
    obtain ⟨same, rules', holds⟩ := ended
    exact ⟨back after same, ⟨rules'.holds, (back after same).frames.symm ▸ rules.frames⟩, holds⟩
  | error cause after =>
    rw [returned] at ended
    exact ⟨back after ended.1, ended.2⟩

theorem Keeps.inLoop {targets : LoopTargets} {action : LowerM α} {post : α → Context → Prop}
    (entered : regime.frames context.env.frames →
      regime.frames (context.env.pushLoop targets).frames)
    (keeps : Keeps regime id action { context with env := context.env.pushLoop targets }
      fun result after => post result { after with env := after.env.popLoop }) :
    Keeps regime id (inLoop targets action) context post := by
  intro rules
  have back : ∀ after : Context, Context.Same id
      { context with env := context.env.pushLoop targets } after →
        context.Same id { after with env := after.env.popLoop } := fun after same =>
    have env : after.env = context.env.pushLoop targets := same.env
    ⟨by simp [env], by simp [env], same.scope⟩
  have ended := keeps ⟨rules.holds, entered rules.frames⟩
  unfold Ends Lowering.inLoop at *
  cases returned : action { context with env := context.env.pushLoop targets } with
  | ok result after =>
    rw [returned] at ended
    obtain ⟨same, rules', holds⟩ := ended
    exact ⟨back after same, ⟨rules'.holds, (back after same).frames.symm ▸ rules.frames⟩, holds⟩
  | error cause after =>
    rw [returned] at ended
    exact ⟨back after ended.1, ended.2⟩

/-! ### Dead code -/

/-- What follows runs only if there still is an open block. -/
theorem Keeps.thenLive {dead : β} {action : LowerM α} {next : α → LowerM β}
    {first : α → Context → Prop} {post : β → Context → Prop}
    (part : Keeps regime view action context first)
    (rest : ∀ result after, first result after → after.Live →
      Keeps regime view (next result) after post)
    (skipped : ∀ result after, first result after → after.builder.cursor = none →
      post dead after) :
    Keeps regime view (thenLive dead action next) context post := by
  unfold Lowering.thenLive
  refine part.bind fun result after holds => ?_
  refine Keeps.isLive.bind ?_
  rintro _ after ⟨rfl, rfl⟩
  by_cases live : after.builder.cursor.isSome = true
  · rw [if_pos live]
    exact rest result after holds live
  · rw [if_neg live]
    exact .pure (skipped result after holds (Option.not_isSome_iff_eq_none.1 live))

/-- A construct that is met in dead code is skipped. -/
theorem Keeps.whenLive {dead : α} {action : LowerM α} {post : α → Context → Prop}
    (skipped : context.builder.cursor = none → post dead context)
    (rest : context.Live → Keeps regime view action context post) :
    Keeps regime view (do if !(← Lowering.isLive) then return dead else action) context post := by
  refine Keeps.isLive.bind ?_
  rintro _ context ⟨rfl, rfl⟩
  cases cursor : context.builder.cursor with
  | none => exact .pure (skipped cursor)
  | some cursor' => exact rest (by rw [Context.Live, cursor]; rfl)

end Keeps

end TreeLowering.Lowering
