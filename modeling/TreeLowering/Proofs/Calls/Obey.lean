/-
This file relates the two ways to speak about the calls of a run: a law that no watched run breaks is
a law that every call obeys which is made and returns. A call that breaks the law raises the alarm when
it is watched, and so does whatever makes the call, up to the whole run.
-/

import TreeLowering.Proofs.Calls.Program
import TreeLowering.Proofs.Calls.Watch

namespace TreeLowering.Lowering

open TreeLowering.Ir TreeLowering.Tree Moment

/-- A way to lower parts through at most so many levels. -/
abbrev LevelsBy := List Name → Nat → (manner : Manner) → ExprId → LowerM manner.Answer

/-- Lowers a whole body, through as many levels as a run grants it. -/
def LevelsBy.body (lower : LevelsBy) (source : Source) (taken : List Name) (expr : ExprId) :
    LowerM Value :=
  lower taken source.exprDepth .value expr

/-- The walk through an expression of so many levels. -/
@[reducible] def LevelsBy.walk (lower : LevelsBy) (source : Source) (taken : List Name)
    (fuel : Nat) : Walk :=
  ⟨source, taken, lower taken fuel .value, lower taken fuel .place⟩

/-- Every level is lowered as usual, but for the alarm that may be raised there. -/
structure Alerts (alarm : Error) (source : Source) (lower : LevelsBy) : Prop where
  zero : ∀ taken manner part, lower taken 0 manner part = throw .malformedTree
  level : ∀ taken fuel manner part, Mirrors alarm ((lower.walk source taken fuel).level manner part)
    (lower taken (fuel + 1) manner part)

/-- The call raises the alarm. -/
def Call.Trips (call : Call) (lower : LevelsBy) (alarm : Error) : Prop :=
  Raises (lower call.taken call.fuel call.manner call.expr) call.before alarm

section Alerts

variable {source : Source} {options : Options} {call inner outer : Call} {alarm : Error}
  {lower : LevelsBy}

theorem Raises.of_mirrors {α : Type} {action mirror : LowerM α} {context : Context}
    (raises : Raises action context alarm) (mirrors : Mirrors alarm action mirror) :
    Raises mirror context alarm := by
  obtain ⟨after, raised⟩ := raises
  rcases mirrors context with same | raised'
  · exact ⟨after, same.trans raised⟩
  · exact raised'

theorem Mirrors.trans {α : Type} {first second third : LowerM α}
    (one : Mirrors alarm first second) (other : Mirrors alarm second third) :
    Mirrors alarm first third := by
  intro context
  rcases other context with same | raised
  · rw [same]
    exact one context
  · exact .inr raised

/-- One level whose parts are all mirrored. -/
theorem mirrors_level {walk : Walk} {expr : ExprId → LowerM Value} {place : ExprId → LowerM Place}
    (exprs : ∀ part, Mirrors alarm (walk.expr part) (expr part))
    (places : ∀ part, Mirrors alarm (walk.place part) (place part)) (manner : Manner)
    (part : ExprId) :
    Mirrors alarm (walk.level manner part) ((walk.through expr place).level manner part) := by
  cases manner with
  | value => exact mirrors_lowerNode exprs places part
  | place => exact mirrors_lowerNodePlace exprs places part

namespace Alerts

variable (alerts : Alerts alarm source lower)

include alerts

/-- The alarm aside, parts are lowered as usual. -/
theorem plain (taken : List Name) (fuel : Nat) (manner : Manner) (part : ExprId) :
    Mirrors alarm ((levels source taken fuel).lower manner part) (lower taken fuel manner part) := by
  induction fuel generalizing manner part with
  | zero =>
    rw [alerts.zero]
    cases manner <;> exact .refl _
  | succ fuel inductionHypothesis =>
    rw [lower_levels]
    have parts : Mirrors alarm ((levels source taken fuel).level manner part)
        ((lower.walk source taken fuel).level manner part) :=
      mirrors_level (inductionHypothesis .value) (inductionHypothesis .place) manner part
    exact parts.trans (alerts.level taken fuel manner part)

/-- The alarm is raised wherever it is raised with the alarm in the place of a tripping call. -/
theorem mirrors_refused (trips : call.Trips lower alarm) (manner : Manner) (part : ExprId) :
    Mirrors alarm ((levels source call.taken call.fuel).refused call.toRequest alarm manner part)
      (lower call.taken call.fuel manner part) := by
  intro context
  by_cases here : call.toRequest = ⟨manner, part, context⟩
  · unfold Call.Trips at trips
    rw [here] at trips
    exact .inr trips
  · have plain : (levels source call.taken call.fuel).refused call.toRequest alarm manner part
        context = (levels source call.taken call.fuel).lower manner part context := if_neg here
    rw [plain]
    exact alerts.plain call.taken call.fuel manner part context

/-- What makes a call that trips trips itself. -/
theorem trips_of_directly (directly : Directly source outer inner)
    (trips : inner.Trips lower alarm) : outer.Trips lower alarm := by
  obtain ⟨⟨manner, expr, before⟩, taken, fuel⟩ := outer
  obtain ⟨rfl, rfl, raises⟩ := directly
  have parts : Mirrors alarm
      (((levels source inner.taken inner.fuel).refusing inner.toRequest alarm).level manner expr)
      ((lower.walk source inner.taken inner.fuel).level manner expr) :=
    mirrors_level (alerts.mirrors_refused trips .value) (alerts.mirrors_refused trips .place)
      manner expr
  exact ((raises alarm).of_mirrors parts).of_mirrors (alerts.level inner.taken inner.fuel manner expr)

/-- A call trips if the alarm is raised wherever its level returns what the call returns. -/
theorem trips_of_returned {answer : call.manner.Answer} {after : Context}
    (returned : call.outcome source = .ok answer after)
    (stops : ∀ fuel,
      (lower.walk source call.taken fuel).level call.manner call.expr call.before =
        .ok answer after →
      Raises (lower call.taken (fuel + 1) call.manner call.expr) call.before alarm) :
    call.Trips lower alarm := by
  obtain ⟨⟨manner, expr, before⟩, taken, fuel⟩ := call
  cases fuel with
  | zero => cases manner <;> cases returned
  | succ fuel =>
    rw [Call.outcome, Walk.outcome, lower_levels] at returned
    have parts : Mirrors alarm ((levels source taken fuel).level manner expr)
        ((lower.walk source taken fuel).level manner expr) :=
      mirrors_level (alerts.plain taken fuel .value) (alerts.plain taken fuel .place) manner expr
    rcases parts before with same | raised
    · exact stops fuel (same.trans returned)
    · exact Raises.of_mirrors raised (alerts.level taken fuel manner expr)

theorem mirrors_refusedWithin {body : ExprId} {before : Context} {fuel : Nat}
    (trips : Call.Trips ⟨⟨.value, body, before⟩, source.program.addressTaken body, fuel⟩ lower
      alarm) (part : ExprId) :
    Mirrors alarm
      ((levels source (source.program.addressTaken part) fuel).refused ⟨.value, body, before⟩ alarm
        .value part)
      (lower (source.program.addressTaken part) fuel .value part) := by
  by_cases same : part = body
  · subst same
    have mirrors := alerts.mirrors_refused trips .value part
    exact mirrors
  · have plain : (levels source (source.program.addressTaken part) fuel).refused
        ⟨.value, body, before⟩ alarm .value part =
          lowerWithin source (source.program.addressTaken part) fuel part :=
      funext fun context => if_neg fun here => same (congrArg Request.expr here).symm
    rw [plain]
    exact alerts.plain (source.program.addressTaken part) fuel .value part

/-- The call for a body that trips, as the run makes it. -/
theorem mirrors_refusedBody {body : ExprId} {before : Context}
    (trips : (bodyCall source body before).Trips lower alarm) (part : ExprId) :
    Mirrors alarm
      (refusedBody source ⟨.value, body, before⟩ alarm (source.program.addressTaken part) part)
      (lower.body source (source.program.addressTaken part) part) := by
  unfold refusedBody LevelsBy.body
  exact alerts.mirrors_refusedWithin trips part

/-- A run that makes a call which trips raises the alarm. -/
theorem raises_of_trips (made : MadeBy source options call) (trips : call.Trips lower alarm) :
    Raises (lowerItemsBy (lower.body source) source) (Context.start options) alarm := by
  induction made with
  | @body body before raises =>
    have mirrors : Mirrors alarm
        (lowerItemsBy (refusedBody source ⟨.value, body, before⟩ alarm) source)
        (lowerItemsBy (lower.body source) source) :=
      mirrors_items source (alerts.mirrors_refusedBody trips)
    exact (raises alarm).of_mirrors mirrors
  | part _ directly inductionHypothesis =>
    exact inductionHypothesis (alerts.trips_of_directly directly trips)

end Alerts

end Alerts

/-! ### Watched calls -/

section Obey

variable {law : CallLaw} [∀ expr before value after, Decidable (law expr before value after)]
  {source : Source} {options : Options} {alarm : Error}

/-- Lowers a part in the given manner with every call watched. -/
def watchedLower (law : CallLaw)
    [∀ expr before value after, Decidable (law expr before value after)] (alarm : Error)
    (source : Source) : LevelsBy := fun taken fuel manner =>
  match manner with
  | .value => watchedWithin law alarm source taken fuel
  | .place => watchedPlaceWithin law alarm source taken fuel

theorem watchedLower_body (law : CallLaw)
    [∀ expr before value after, Decidable (law expr before value after)] (alarm : Error)
    (source : Source) :
    (watchedLower law alarm source).body source = watchedExpr law alarm source := by
  funext taken expr
  rw [LevelsBy.body, watchedExpr]
  generalize source.exprDepth = fuel
  rfl

theorem mirrors_watched (expr : ExprId) (action : LowerM Value) :
    Mirrors alarm action (watched (law expr) alarm action) := by
  intro context
  unfold watched
  cases action context with
  | ok value after =>
    by_cases obeyed : law expr context value after
    · exact .inl (if_pos obeyed)
    · exact .inr ⟨after, if_neg obeyed⟩
  | error cause after => exact .inl rfl

theorem alerts_watched (law : CallLaw)
    [∀ expr before value after, Decidable (law expr before value after)] (alarm : Error)
    (source : Source) : Alerts alarm source (watchedLower law alarm source) where
  zero _ manner _ := by cases manner <;> rfl
  level taken fuel manner part := by
    cases manner with
    | value => exact mirrors_watched part _
    | place => exact .refl _

variable {expr : ExprId} {before after : Context} {taken : List Name} {fuel : Nat} {value : Value}

/-- A call that returns with the law broken trips. -/
theorem trips_of_broken (returned : lowerWithin source taken fuel expr before = .ok value after)
    (broken : ¬ law expr before value after) :
    Call.Trips ⟨⟨.value, expr, before⟩, taken, fuel⟩ (watchedLower law alarm source) alarm := by
  refine (alerts_watched law alarm source).trips_of_returned returned fun fuel level => ⟨after, ?_⟩
  have ended : lowerNode ⟨source, taken, watchedWithin law alarm source taken fuel,
      watchedPlaceWithin law alarm source taken fuel⟩ expr before = .ok value after := level
  show watchedWithin law alarm source taken (fuel + 1) expr before = _
  rw [watchedWithin, watched, ended]
  exact if_neg broken

/-- A law that no watched run breaks is obeyed by every call that is made and returns. -/
theorem obeys_of_made (calls : EveryCall source options law)
    (made : MadeBy source options ⟨⟨.value, expr, before⟩, taken, fuel⟩)
    (returned : lowerWithin source taken fuel expr before = .ok value after) :
    law expr before value after := by
  by_contra broken
  have raised : ∀ alarm, lowerProgram source options = .error alarm := by
    intro alarm
    obtain ⟨last, raised⟩ :=
      (alerts_watched law alarm source).raises_of_trips made (trips_of_broken returned broken)
    rw [watchedLower_body] at raised
    rw [← calls alarm, lowerProgramBy, raised]
  cases (raised .malformedTree).symm.trans (raised .noInsertionPoint)

/-- Every call that is made and returns was made where a construct may stand. -/
theorem standing_of_made (made : MadeBy source options ⟨⟨.value, expr, before⟩, taken, fuel⟩)
    (returned : lowerWithin source taken fuel expr before = .ok value after) :
    ∃ now, Standing now now before.env before := by
  classical
  have holds : CallLaw.HoldsStanding (fun _ before _ _ => ∃ now, Standing now now before.env before)
      source := fun _ _ _ {now _ _ _} standing _ => ⟨now, standing⟩
  exact obeys_of_made (everyCall_of_standing holds options) made returned

end Obey

end TreeLowering.Lowering
