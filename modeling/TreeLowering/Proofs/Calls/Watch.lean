/-
This file says what it means that every call in a run obeys a law. A watched run lowers a program as
usual, but a call of the expression lowering that returns with the law broken raises an alarm. The
law holds of every call when watching changes nothing, whatever the alarm is. Main statement: a law
that holds wherever a construct may stand holds of every call of every run.
-/

import TreeLowering.Proofs.Calls.Mirror

namespace TreeLowering.Lowering

open TreeLowering.Ir TreeLowering.Tree Moment

/-! ### Watched runs -/

/-- What may be asked of a call, given its expression, the state before it, the value it returns and
the state after it. -/
abbrev CallLaw := ExprId → Context → Value → Context → Prop

/-- Does what `action` does, and raises the alarm if it returns with the law broken. -/
def watched (law : Context → Value → Context → Prop)
    [∀ before value after, Decidable (law before value after)] (alarm : Error)
    (action : LowerM Value) : LowerM Value := fun before =>
  match action before with
  | .ok value after => if law before value after then .ok value after else .error alarm after
  | .error cause after => .error cause after

section Watched

variable (law : CallLaw) [∀ expr before value after, Decidable (law expr before value after)]
  (alarm : Error)

mutual

/-- Lowers an expression to its value with every call watched, through at most `fuel` levels. -/
def watchedWithin (source : Source) (taken : List Name) : (fuel : Nat) → ExprId → LowerM Value
  | 0, _ => throw .malformedTree
  | fuel + 1, expr =>
    watched (law expr) alarm (lowerNode
      ⟨source, taken, watchedWithin source taken fuel, watchedPlaceWithin source taken fuel⟩ expr)

/-- Lowers an expression to the address it denotes with every call watched, through at most `fuel`
levels. -/
def watchedPlaceWithin (source : Source) (taken : List Name) : (fuel : Nat) → ExprId → LowerM Place
  | 0, _ => throw .malformedTree
  | fuel + 1, expr =>
    lowerNodePlace
      ⟨source, taken, watchedWithin source taken fuel, watchedPlaceWithin source taken fuel⟩ expr

end

/-- Lowers an expression with every call watched. -/
def watchedExpr (source : Source) (taken : List Name) (expr : ExprId) : LowerM Value :=
  watchedWithin law alarm source taken source.exprDepth expr

end Watched

/-- The module of a program whose bodies are lowered by `lower`. -/
def lowerProgramBy (lower : List Name → ExprId → LowerM Value) (source : Source)
    (options : Options) : Except Error Module :=
  match lowerItemsBy lower source (Context.start options) with
  | .ok _ context => .ok context.builder.target
  | .error cause _ => .error cause

theorem lowerProgramBy_lowerExpr (source : Source) (options : Options) :
    lowerProgramBy (lowerExpr source) source options = lowerProgram source options := rfl

/-- Every call of the expression lowering that is made while the program is lowered, and that
returns, obeys the law: no alarm is ever raised. -/
def EveryCall (source : Source) (options : Options) (law : CallLaw)
    [∀ expr before value after, Decidable (law expr before value after)] : Prop :=
  ∀ alarm, lowerProgramBy (watchedExpr law alarm source) source options =
    lowerProgram source options

/-! ### Watching less -/

section Mirror

variable {law law' : CallLaw} [∀ expr before value after, Decidable (law expr before value after)]
  [∀ expr before value after, Decidable (law' expr before value after)] {silent alarm : Error}

/-- Watching a stronger law raises at least as many alarms. -/
theorem Mirrors.watched {expr : ExprId} {action mirror : LowerM Value}
    (weaker : ∀ before value after, law expr before value after → law' expr before value after)
    (part : Mirrors silent action mirror) :
    Mirrors silent (watched (law' expr) alarm action) (watched (law expr) silent mirror) := by
  intro context
  unfold Lowering.watched
  rcases part context with same | ⟨after, raised⟩
  · rw [same]
    cases action context with
    | ok value after =>
      by_cases obeyed : law expr context value after
      · simp only [if_pos obeyed, if_pos (weaker context value after obeyed), true_or]
      · simp only [if_neg obeyed]
        exact .inr ⟨after, rfl⟩
    | error cause after => exact .inl rfl
  · rw [raised]
    exact .inr ⟨after, rfl⟩

theorem mirrors_watchedWithin
    (weaker : ∀ expr before value after, law expr before value after →
      law' expr before value after) (source : Source) (taken : List Name) (fuel : Nat) :
    (∀ part, Mirrors silent (watchedWithin law' alarm source taken fuel part)
      (watchedWithin law silent source taken fuel part)) ∧
    ∀ part, Mirrors silent (watchedPlaceWithin law' alarm source taken fuel part)
      (watchedPlaceWithin law silent source taken fuel part) := by
  induction fuel with
  | zero => exact ⟨fun _ => .refl _, fun _ => .refl _⟩
  | succ fuel inductionHypothesis =>
    obtain ⟨exprs, places⟩ := inductionHypothesis
    have node : ∀ part, Mirrors silent
        (lowerNode ⟨source, taken, watchedWithin law' alarm source taken fuel,
          watchedPlaceWithin law' alarm source taken fuel⟩ part)
        (lowerNode ⟨source, taken, watchedWithin law silent source taken fuel,
          watchedPlaceWithin law silent source taken fuel⟩ part) :=
      mirrors_lowerNode exprs places
    have nodePlace : ∀ part, Mirrors silent
        (lowerNodePlace ⟨source, taken, watchedWithin law' alarm source taken fuel,
          watchedPlaceWithin law' alarm source taken fuel⟩ part)
        (lowerNodePlace ⟨source, taken, watchedWithin law silent source taken fuel,
          watchedPlaceWithin law silent source taken fuel⟩ part) :=
      mirrors_lowerNodePlace exprs places
    exact ⟨fun part => (node part).watched (weaker part), nodePlace⟩

end Mirror

/-- To watch for nothing is not to watch. -/
theorem watchedWithin_true (alarm : Error) (source : Source) (taken : List Name) (fuel : Nat) :
    watchedWithin (fun _ _ _ _ => True) alarm source taken fuel = lowerWithin source taken fuel ∧
      watchedPlaceWithin (fun _ _ _ _ => True) alarm source taken fuel =
        placeWithin source taken fuel := by
  induction fuel with
  | zero => exact ⟨rfl, rfl⟩
  | succ fuel inductionHypothesis =>
    obtain ⟨exprs, places⟩ := inductionHypothesis
    refine ⟨funext fun expr => funext fun context => ?_, funext fun expr => ?_⟩
    · rw [watchedWithin, lowerWithin, exprs, places, watched]
      cases lowerNode _ expr context with
      | ok value after => exact if_pos trivial
      | error cause after => rfl
    · rw [watchedPlaceWithin, placeWithin, exprs, places]

theorem mirrors_lowerWithin (law : CallLaw)
    [∀ expr before value after, Decidable (law expr before value after)] (alarm : Error)
    (source : Source) (taken : List Name) (fuel : Nat) :
    (∀ part, Mirrors alarm (lowerWithin source taken fuel part)
      (watchedWithin law alarm source taken fuel part)) ∧
    ∀ part, Mirrors alarm (placeWithin source taken fuel part)
      (watchedPlaceWithin law alarm source taken fuel part) := by
  obtain ⟨exprs, places⟩ := watchedWithin_true alarm source taken fuel
  rw [← exprs, ← places]
  exact mirrors_watchedWithin (fun _ _ _ _ _ => trivial) source taken fuel

/-! ### Laws that hold everywhere -/

section Everywhere

variable {law : CallLaw} [∀ expr before value after, Decidable (law expr before value after)]
  {source : Source}

theorem Ensures.watched {expr : ExprId} {action : LowerM Value} {context : Context}
    {post : Value → Context → Prop} (ensured : Ensures action context post) (alarm : Error)
    (obeys : ∀ value after, action context = .ok value after → law expr context value after) :
    Ensures (watched (law expr) alarm action) context post := by
  unfold Ensures Lowering.watched at *
  cases ended : action context with
  | ok value after =>
    rw [ended] at ensured
    simpa only [if_pos (obeys value after ended)] using ensured
  | error cause after =>
    rw [ended] at ensured
    exact ensured

/-- The law holds of every call from where a construct may stand. -/
def CallLaw.HoldsStanding (law : CallLaw) (source : Source) : Prop :=
  ∀ taken fuel expr {now context value after}, Standing now now context.env context →
    lowerWithin source taken fuel expr context = .ok value after → law expr context value after

/-- A watched walk is as sound as one that is not watched, since the law is never broken. -/
theorem watchedWithin_sound (holds : law.HoldsStanding source) (alarm : Error) (taken : List Name)
    (fuel : Nat) :
    Walk.Sound ⟨source, taken, watchedWithin law alarm source taken fuel,
      watchedPlaceWithin law alarm source taken fuel⟩ := by
  induction fuel with
  | zero => exact ⟨fun _ _ => rfl, fun _ _ => rfl⟩
  | succ fuel sound =>
    refine ⟨fun {now context} standing part => ?_, fun standing part =>
      standing.lowerNodePlace sound part⟩
    obtain ⟨exprs, places⟩ := mirrors_lowerWithin law alarm source taken fuel
    have node : Mirrors alarm (lowerWithin source taken (fuel + 1) part)
        (lowerNode ⟨source, taken, watchedWithin law alarm source taken fuel,
          watchedPlaceWithin law alarm source taken fuel⟩ part) := mirrors_lowerNode exprs places part
    exact (standing.lowerNode sound part).watched alarm fun value after returned =>
      holds taken (fuel + 1) part standing (node.of_ok returned)

theorem soundBodies_watchedExpr (holds : law.HoldsStanding source) (alarm : Error) :
    SoundBodies (watchedExpr law alarm source) := by
  intro now context standing taken body
  unfold watchedExpr
  exact (watchedWithin_sound holds alarm taken source.exprDepth).expr standing body

/-- A law that holds wherever a construct may stand holds of every call. -/
theorem everyCall_of_standing (holds : law.HoldsStanding source) (options : Options) :
    EveryCall source options law := by
  intro alarm
  -- a run that is watched with this alarm never raises it, since it would be a misstep
  have quiet : ¬ ∃ after, lowerItemsBy (watchedExpr law .noInsertionPoint source) source
      (Context.start options) = .error .noInsertionPoint after := by
    rintro ⟨after, raised⟩
    rcases (ends_lowerItemsBy (soundBodies_watchedExpr holds _) source options).of_error raised with
      harmless | ⟨same, _⟩
    · cases harmless
    · cases same
  have plain : ∀ taken body, Mirrors .noInsertionPoint (lowerExpr source taken body)
      (watchedExpr law .noInsertionPoint source taken body) := fun taken body =>
    (mirrors_lowerWithin law .noInsertionPoint source taken source.exprDepth).1 body
  have loud : ∀ taken body, Mirrors .noInsertionPoint (watchedExpr law alarm source taken body)
      (watchedExpr law .noInsertionPoint source taken body) := fun taken body =>
    (mirrors_watchedWithin (fun _ _ _ _ => id) source taken source.exprDepth).1 body
  have same := (mirrors_items source (fun body => plain _ body)
    (Context.start options)).resolve_right quiet
  have same' := (mirrors_items source (fun body => loud _ body)
    (Context.start options)).resolve_right quiet
  rw [← lowerProgramBy_lowerExpr, lowerProgramBy, lowerProgramBy, ← same', same]

end Everywhere

end TreeLowering.Lowering
