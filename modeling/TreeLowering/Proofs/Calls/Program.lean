/-
This file splits the run of a program at its functions. Each call of the run is made while one
function is lowered, after everything was declared and the functions before it were lowered. An
error of that function ends the run, and in a run that returns no later function touches what it was
lowered to.
-/

import TreeLowering.Proofs.Calls.Made

namespace TreeLowering.Lowering

open TreeLowering.Ir TreeLowering.Tree

/-- Everything is declared, and `declared` lists the functions with their positions. -/
def Declares (source : Source) (options : Options) (declared : List (FunctionDecl × FuncId))
    (context : Context) : Prop :=
  ∃ first, source.program.items.forM (declareItem source) (Context.start options) = .ok () first ∧
    (source.program.functions.mapM fun decl => do return (decl, ← declareFn source decl) :
      LowerM (List (FunctionDecl × FuncId))) first = .ok declared context

/-- Lowers the bodies one after the other, each by `lower`. -/
abbrev lowerBodies (lower : List Name → ExprId → LowerM Value) (source : Source)
    (declared : List (FunctionDecl × FuncId)) : LowerM Unit :=
  declared.forM fun (decl, func) => lowerFunctionBy lower source decl func

/-- The run comes to the function: those declared before it are lowered. -/
def Turn (source : Source) (options : Options) (decl : FunctionDecl) (func : FuncId)
    (context : Context) : Prop :=
  ∃ earlier later second, Declares source options (earlier ++ (decl, func) :: later) second ∧
    lowerBodies (lowerExpr source) source earlier second = .ok () context

section Turns

variable {source : Source} {options : Options} {decl : FunctionDecl} {func : FuncId}
  {context second last : Context} {declared earlier later rest : List (FunctionDecl × FuncId)}
  {request : Request} {call : Call} {lower : List Name → ExprId → LowerM Value}

/-! ### Declarations -/

theorem lowerItemsBy_of_declares (declares : Declares source options declared second)
    (lower : List Name → ExprId → LowerM Value) :
    lowerItemsBy lower source (Context.start options) = lowerBodies lower source declared second := by
  obtain ⟨first, items, functions⟩ := declares
  unfold lowerItemsBy
  rw [run_bind items, run_bind functions]

/-- Everything is declared, or the run ends before a body is lowered. -/
theorem declares_or_fails (source : Source) (options : Options) :
    (∃ declared second, Declares source options declared second) ∨
      ∃ cause after, ∀ lower, lowerItemsBy lower source (Context.start options) =
        .error cause after := by
  unfold lowerItemsBy
  cases items : source.program.items.forM (declareItem source) (Context.start options) with
  | error cause after => exact .inr ⟨cause, after, fun _ => run_bind_error items⟩
  | ok _ first =>
    cases functions : (source.program.functions.mapM fun decl => do
        return (decl, ← declareFn source decl) : LowerM (List (FunctionDecl × FuncId))) first with
    | error cause after =>
      exact .inr ⟨cause, after, fun _ => (run_bind items).trans (run_bind_error functions)⟩
    | ok declared second => exact .inl ⟨declared, second, first, items, functions⟩

/-! ### Lists of bodies -/

/-- The first body, and then the others. -/
theorem lowerBodies_cons (lower : List Name → ExprId → LowerM Value) (source : Source)
    (pair : FunctionDecl × FuncId) (rest : List (FunctionDecl × FuncId)) :
    lowerBodies lower source (pair :: rest) =
      lowerFunctionBy lower source pair.1 pair.2 >>= fun _ => lowerBodies lower source rest := rfl

/-- Some bodies, and then the others. -/
theorem run_lowerBodies_append (done : lowerBodies lower source earlier second = .ok () context)
    (rest : List (FunctionDecl × FuncId)) :
    lowerBodies lower source (earlier ++ rest) second = lowerBodies lower source rest context := by
  induction earlier generalizing second with
  | nil =>
    cases done
    rfl
  | cons pair earlier inductionHypothesis =>
    rw [lowerBodies_cons] at done
    obtain ⟨_, middle, one, done⟩ := run_bind_ok done
    rw [List.cons_append, lowerBodies_cons, run_bind one]
    exact inductionHypothesis done

theorem run_lowerBodies_append_ok
    (returned : lowerBodies lower source (earlier ++ rest) second = .ok () last) :
    ∃ middle, lowerBodies lower source earlier second = .ok () middle := by
  induction earlier generalizing second with
  | nil => exact ⟨second, rfl⟩
  | cons pair earlier inductionHypothesis =>
    rw [List.cons_append, lowerBodies_cons] at returned
    obtain ⟨_, middle, one, returned⟩ := run_bind_ok returned
    obtain ⟨after, others⟩ := inductionHypothesis returned
    exact ⟨after, (run_bind one).trans others⟩

/-- An error in the place of a call is the error of the function, or it makes no difference. -/
theorem reached_function (source : Source) (decl : FunctionDecl) (func : FuncId)
    (context : Context) (request : Request) :
    (∀ alarm, lowerFunctionBy (refusedBody source request alarm) source decl func context =
      lowerFunction source decl func context) ∨
    ∀ alarm, Raises (lowerFunctionBy (refusedBody source request alarm) source decl func) context
      alarm := by
  cases given : decl.body with
  | none =>
    refine .inl fun alarm => ?_
    rw [lowerFunctionBy, lowerFunction, given]
  | some body =>
    obtain ⟨cause, after, _, failed⟩ | ⟨ret, inside, env, work, here, live, entered⟩ :=
      lowerFunctionBy_entered source func context given
    · exact .inl fun alarm => (failed _).trans (failed (lowerExpr source)).symm
    · rcases (followed_body source decl body work here ret).reached request with
        same | ⟨raises, _⟩
      · refine .inl fun alarm => ?_
        have entered' : lowerFunction source decl func context =
            inFunction ret (lowerBodyBy (lowerExpr source) source decl func ret body) inside :=
          entered (lowerExpr source)
        rw [entered, entered', inFunction, inFunction, same alarm]
      · refine .inr fun alarm => ?_
        obtain ⟨after, raised⟩ := inFunction_raises.2 (raises alarm)
        exact ⟨after, (entered _).trans raised⟩

/-- When the bodies make a call, one of them makes it, and those before it are lowered. -/
theorem turn_of_raises (raises : ∀ alarm,
      Raises (lowerBodies (refusedBody source request alarm) source rest) context alarm) :
    ∃ earlier decl func later middle, rest = earlier ++ (decl, func) :: later ∧
      lowerBodies (lowerExpr source) source earlier context = .ok () middle ∧
      ∀ alarm, Raises (lowerFunctionBy (refusedBody source request alarm) source decl func) middle
        alarm := by
  induction rest generalizing context with
  | nil =>
    obtain ⟨_, raised⟩ := raises .malformedTree
    cases raised
  | cons pair rest inductionHypothesis =>
    obtain ⟨decl, func⟩ := pair
    simp only [lowerBodies_cons] at raises
    rcases reached_function source decl func context request with same | own
    · cases ended : lowerFunction source decl func context with
      | error cause after =>
        refine (not_raises_all (lowerFunction source decl func) context fun alarm => ?_).elim
        obtain ⟨after', raised⟩ := raises alarm
        rw [run_bind_error ((same alarm).trans ended)] at raised
        cases raised
        exact ⟨after, ended⟩
      | ok _ middle =>
        have raises' : ∀ alarm, Raises (lowerBodies (refusedBody source request alarm) source rest)
            middle alarm := fun alarm => by
          obtain ⟨after, raised⟩ := raises alarm
          exact ⟨after, (run_bind ((same alarm).trans ended)).symm.trans raised⟩
        obtain ⟨earlier, decl', func', later, last, rfl, done, own⟩ := inductionHypothesis raises'
        refine ⟨(decl, func) :: earlier, decl', func', later, last, rfl, ?_, own⟩
        rw [lowerBodies_cons]
        exact (run_bind ended).trans done
    · exact ⟨[], decl, func, rest, context, rfl, rfl, own⟩

/-- What one body makes is made by all of them together. -/
theorem raises_of_turn (done : lowerBodies (lowerExpr source) source earlier second = .ok () context)
    (own : ∀ alarm,
      Raises (lowerFunctionBy (refusedBody source request alarm) source decl func) context alarm)
    (alarm : Error) : Raises (lowerBodies (refusedBody source request alarm) source
      (earlier ++ (decl, func) :: later)) second alarm := by
  induction earlier generalizing second with
  | nil =>
    cases done
    exact (own alarm).bind
  | cons pair earlier inductionHypothesis =>
    rw [lowerBodies_cons] at done
    obtain ⟨_, middle, one, done⟩ := run_bind_ok done
    rw [List.cons_append, lowerBodies_cons]
    rcases reached_function source pair.1 pair.2 second request with same | early
    · refine Raises.later ?_ ((same alarm).trans one)
      exact inductionHypothesis done
    · exact (early alarm).bind

/-! ### Calls -/

/-- The calls that are made while a program is lowered. -/
abbrev MadeBy (source : Source) (options : Options) : Call → Prop :=
  Made source (fun lower => lowerItemsBy lower source) (Context.start options)

/-- The calls of a program are the calls of its functions. -/
theorem madeBy_iff : MadeBy source options call ↔ ∃ decl func context,
    Turn source options decl func context ∧ MadeIn source decl func context call := by
  constructor
  · intro made
    induction made with
    | @body body before raises =>
      rcases declares_or_fails source options with ⟨declared, second, declares⟩ |
        ⟨cause, after, fails⟩
      · have raises' : ∀ alarm, Raises (lowerBodies
            (refusedBody source ⟨.value, body, before⟩ alarm) source declared) second alarm :=
          fun alarm => by
            obtain ⟨after, raised⟩ := raises alarm
            exact ⟨after, (lowerItemsBy_of_declares declares _).symm.trans raised⟩
        obtain ⟨earlier, decl, func, later, middle, rfl, done, own⟩ := turn_of_raises raises'
        exact ⟨decl, func, middle, ⟨earlier, later, second, declares, done⟩, .body own⟩
      · refine (not_raises_all (lowerItemsBy (lowerExpr source) source) (Context.start options)
          fun alarm => ?_).elim
        obtain ⟨after', raised⟩ := raises alarm
        cases (fails _).symm.trans raised
        exact ⟨after, fails _⟩
    | part _ directly inductionHypothesis =>
      obtain ⟨decl, func, context, turn, made⟩ := inductionHypothesis
      exact ⟨decl, func, context, turn, made.part directly⟩
  · rintro ⟨decl, func, context, ⟨earlier, later, second, declares, done⟩, made⟩
    induction made with
    | body own =>
      refine .body fun alarm => ?_
      rw [Raises, lowerItemsBy_of_declares declares]
      exact raises_of_turn done own alarm
    | part _ directly inductionHypothesis => exact inductionHypothesis.part directly

/-! ### What becomes of a function -/

/-- Some bodies are lowered. -/
theorem Progress.advance {all done : List (FunctionDecl × FuncId)}
    (progress : Progress source all done context) (whole : all = done ++ earlier ++ later)
    (returned : lowerBodies (lowerExpr source) source earlier context = .ok () last) :
    Progress source all (done ++ earlier) last := by
  induction earlier generalizing done context with
  | nil =>
    cases returned
    rw [List.append_nil]
    exact progress
  | cons pair earlier inductionHypothesis =>
    rw [lowerBodies_cons] at returned
    obtain ⟨_, middle, one, returned⟩ := run_bind_ok returned
    have whole' : all = done ++ pair :: (earlier ++ later) := by
      rw [whole, List.append_assoc, List.cons_append]
    have step := (progress.step (soundBodies_lowerExpr source) whole').of_ok one
    rw [List.append_cons]
    exact inductionHypothesis step (by simp [whole]) returned

/-- A function that is complete stays as it is while other bodies are lowered. -/
theorem Progress.kept {all done : List (FunctionDecl × FuncId)} {function : Function}
    (progress : Progress source all done context) (whole : all = done ++ rest)
    (found : context.builder.target.function? func = some function)
    (full : function.isDeclaration = false)
    (returned : lowerBodies (lowerExpr source) source rest context = .ok () last) :
    last.builder.target.function? func = some function := by
  induction rest generalizing done context with
  | nil =>
    cases returned
    exact found
  | cons pair rest inductionHypothesis =>
    rw [lowerBodies_cons] at returned
    obtain ⟨_, middle, one, returned⟩ := run_bind_ok returned
    have step := (progress.step (soundBodies_lowerExpr source) whole).of_ok one
    refine inductionHypothesis step (by rw [whole, List.append_assoc]; rfl) ?_ returned
    cases given : pair.1.body with
    | none =>
      rw [lowerFunctionBy, given] at one
      cases one
      exact found
    | some body =>
      obtain ⟨other, stored, _⟩ := progress.placed pair (by simp [whole])
      cases bare : other.isDeclaration with
      | false =>
        rw [lowerFunction_full progress.resting stored bare given] at one
        cases one
      | true =>
        have gives := ((ensures_lowerFunction (soundBodies_lowerExpr source) progress.resting stored
          bare given).of_ok one).2
        refine gives.beside.kept func (fun same => ?_) function found
        rw [same, stored] at found
        cases found
        cases bare.symm.trans full

/-- In a run that returns, every function has its turn. -/
theorem turn_of_returned (returned : lowerItems source (Context.start options) = .ok () last)
    (listed : decl ∈ source.program.functions) :
    ∃ func context, Turn source options decl func context := by
  rcases declares_or_fails source options with ⟨declared, second, declares⟩ | ⟨cause, after, fails⟩
  · have whole : lowerBodies (lowerExpr source) source declared second = .ok () last :=
      (lowerItemsBy_of_declares declares (lowerExpr source)).symm.trans returned
    obtain ⟨first, items, functions⟩ := declares
    obtain ⟨_, same, _⟩ := (ensures_declareAll source source.program.functions).of_ok functions
    obtain ⟨⟨decl', func⟩, member, rfl⟩ := List.mem_map.1 (same ▸ listed)
    obtain ⟨earlier, later, rfl⟩ := List.append_of_mem member
    obtain ⟨context, done⟩ := run_lowerBodies_append_ok whole
    exact ⟨func, context, earlier, later, second, ⟨first, items, functions⟩, done⟩
  · cases (fails (lowerExpr source)).symm.trans returned

namespace Turn

variable (turn : Turn source options decl func context)

include turn

/-- When the function fails, so does the run. -/
theorem failed {cause : Error} {after : Context}
    (failed : lowerFunction source decl func context = .error cause after) :
    lowerItems source (Context.start options) = .error cause after := by
  obtain ⟨earlier, later, second, declares, done⟩ := turn
  have whole : lowerItems source (Context.start options) =
      lowerBodies (lowerExpr source) source (earlier ++ (decl, func) :: later) second :=
    lowerItemsBy_of_declares declares (lowerExpr source)
  rw [whole, run_lowerBodies_append done, lowerBodies_cons]
  exact run_bind_error failed

/-- In a run that returns, the function is lowered, and stays as it is from then on. -/
theorem returned (returned : lowerItems source (Context.start options) = .ok () last) :
    ∃ after, lowerFunction source decl func context = .ok () after ∧
      ∀ function, after.builder.target.function? func = some function →
        function.isDeclaration = false → last.builder.target.function? func = some function := by
  obtain ⟨earlier, later, second, declares, done⟩ := turn
  have whole : lowerItems source (Context.start options) =
      lowerBodies (lowerExpr source) source (earlier ++ (decl, func) :: later) second :=
    lowerItemsBy_of_declares declares (lowerExpr source)
  rw [whole, run_lowerBodies_append done, lowerBodies_cons] at returned
  obtain ⟨_, after, one, others⟩ := run_bind_ok returned
  obtain ⟨first, items, functions⟩ := declares
  have quietly := (ensures_declareItems source).of_ok items
  obtain ⟨quietly', _, placed⟩ :=
    (ensures_declareAll source source.program.functions).of_ok functions
  have upTo : lowerBodies (lowerExpr source) source (earlier ++ [(decl, func)]) second =
      .ok () after := by
    rw [run_lowerBodies_append done, lowerBodies_cons, run_bind one]
    rfl
  have split : earlier ++ (decl, func) :: later = [] ++ (earlier ++ [(decl, func)]) ++ later := by
    simp
  have progress : Progress source _ ([] ++ (earlier ++ [(decl, func)])) after :=
    (Progress.start (quietly.trans quietly') placed).advance split upTo
  exact ⟨after, one, fun function found full => progress.kept split found full others⟩

end Turn

/-- A call that fails ends the run. -/
theorem lowerProgram_of_failed (made : MadeBy source options call) {cause : Error}
    {middle : Context} (failed : call.outcome source = .error cause middle) :
    lowerProgram source options = .error cause := by
  obtain ⟨decl, func, context, turn, made⟩ := madeBy_iff.1 made
  obtain ⟨_, _, handed⟩ := handed_of_made made
  obtain ⟨after, failed⟩ := handed.failed failed
  rw [lowerProgram, turn.failed failed]

/-- In an accepted program, what a call has built is spared until its function is complete, and the
module keeps the function as it is then. -/
theorem spared_of_made {target : Module} {answer : call.manner.Answer} {after : Context}
    (accepted : lowerProgram source options = .ok target) (made : MadeBy source options call)
    (returned : call.outcome source = .ok answer after) :
    ∃ func last, call.Ready func ∧ target.function? func = some last.body ∧
      Builder.Spares call.before.builder.Has after.builder last := by
  obtain ⟨decl, func, context, turn, madeIn⟩ := madeBy_iff.1 made
  cases run : lowerItems source (Context.start options) with
  | error cause last =>
    rw [lowerProgram, run] at accepted
    cases accepted
  | ok _ last =>
    rw [lowerProgram, run] at accepted
    cases accepted
    obtain ⟨final, ended, kept⟩ := turn.returned run
    obtain ⟨_, _, handed⟩ := handed_of_made madeIn
    have ready := ready_of_made madeIn
    have later := handed.returned returned ended
    obtain ⟨_, own⟩ := orderly_levels source call.taken call.fuel ready call.manner call.expr _ _
      returned
    have found := later.work.found (later.current.trans (own.current.trans ready.here))
    exact ⟨func, final.builder, ready, kept _ found later.work.started, later⟩

/-- In an accepted program, the call for the body of every function is made and returns. -/
theorem madeBy_of_accepted {target : Module} {body : ExprId}
    (accepted : lowerProgram source options = .ok target)
    (listed : decl ∈ source.program.functions) (given : decl.body = some body) :
    ∃ before taken fuel value middle,
      MadeBy source options ⟨⟨.value, body, before⟩, taken, fuel + 1⟩ ∧ before.Live ∧
      lowerWithin source taken (fuel + 1) body before = .ok value middle := by
  cases run : lowerItems source (Context.start options) with
  | error cause context =>
    rw [lowerProgram, run] at accepted
    cases accepted
  | ok _ last =>
    obtain ⟨func, context, turn⟩ := turn_of_returned run listed
    obtain ⟨after, returned, _⟩ := turn.returned run
    obtain ⟨before, answer, middle, made, live, lowered⟩ := made_of_returned given returned
    obtain ⟨fuel, depth⟩ : ∃ fuel, source.exprDepth = fuel + 1 :=
      Nat.exists_eq_succ_of_ne_zero (Nat.succ_ne_zero _)
    have made' := madeBy_iff.2 ⟨decl, func, context, turn, made⟩
    rw [bodyCall, depth] at made'
    rw [outcome_bodyCall, lowerExpr, depth] at lowered
    exact ⟨before, _, fuel, answer, middle, made', live, lowered⟩

end Turns

end TreeLowering.Lowering
