/-
This file says which calls of the expression lowering are made while a function or a program is
lowered. A run makes a call for a body, and a call makes the calls for the parts of its expression.
Main statement: where a call starts, the function being built is found with its blocks; an error of
the call ends the run; and later on control comes to what the call has built by the ways of the call
only.
-/

import Mathlib.Logic.Relation
import TreeLowering.Proofs.Calls.Construct

namespace TreeLowering.Lowering

open TreeLowering.Ir TreeLowering.Tree

/-! ### Calls -/

/-- How parts are lowered through at most `fuel` levels. -/
@[reducible] def levels (source : Source) (taken : List Name) (fuel : Nat) : Walk :=
  ⟨source, taken, lowerWithin source taken fuel, placeWithin source taken fuel⟩

/-- One level of an expression, lowered in the given manner. -/
def Walk.level (walk : Walk) : (manner : Manner) → ExprId → LowerM manner.Answer
  | .value => lowerNode walk
  | .place => lowerNodePlace walk

theorem lower_levels (source : Source) (taken : List Name) (fuel : Nat) (manner : Manner)
    (expr : ExprId) : (levels source taken (fuel + 1)).lower manner expr =
      (levels source taken fuel).level manner expr := by
  cases manner <;> rfl

/-- A call in a run: what is asked for, the names that must live in memory, and how many levels
there may be. -/
structure Call extends Request where
  taken : List Name
  fuel : Nat

/-- How a call ends. -/
def Call.outcome (call : Call) (source : Source) :
    EStateM.Result Error Context call.manner.Answer :=
  (levels source call.taken call.fuel).outcome call.toRequest

/-- One call makes another one: with any error in the place of the other, it ends with that
error. -/
structure Directly (source : Source) (outer inner : Call) : Prop where
  taken : inner.taken = outer.taken
  fuel : inner.fuel + 1 = outer.fuel
  raises : ∀ alarm, Raises (((levels source inner.taken inner.fuel).refusing inner.toRequest
    alarm).level outer.manner outer.expr) outer.before alarm

/-- How a run lowers bodies, when one call for a body fails with the alarm instead. -/
noncomputable def refusedBody (source : Source) (request : Request) (alarm : Error)
    (taken : List Name) (body : ExprId) : LowerM Value :=
  (levels source taken source.exprDepth).refused request alarm .value body

/-- The call that lowers a body. -/
def bodyCall (source : Source) (body : ExprId) (before : Context) : Call :=
  ⟨⟨.value, body, before⟩, source.program.addressTaken body, source.exprDepth⟩

theorem outcome_value (source : Source) (taken : List Name) (fuel : Nat) (expr : ExprId)
    (before : Context) : (levels source taken fuel).outcome ⟨.value, expr, before⟩ =
      lowerWithin source taken fuel expr before := rfl

theorem outcome_bodyCall (source : Source) (body : ExprId) (before : Context) :
    (bodyCall source body before).outcome source =
      lowerExpr source (source.program.addressTaken body) body before :=
  outcome_value source _ source.exprDepth body before

theorem refusedBody_self (source : Source) (body : ExprId) (before : Context) (alarm : Error) :
    refusedBody source ⟨.value, body, before⟩ alarm (source.program.addressTaken body) body before =
      .error alarm before :=
  (levels source _ source.exprDepth).refused_self alarm .value body before

/-- A run, given how it lowers bodies. -/
abbrev BodyRun := (List Name → ExprId → LowerM Value) → LowerM Unit

/-- The calls that are made by a run from the given state. -/
inductive Made (source : Source) (run : BodyRun) (start : Context) : Call → Prop where
  | body {body : ExprId} {before : Context}
      (raises : ∀ alarm, Raises (run (refusedBody source ⟨.value, body, before⟩ alarm)) start alarm) :
      Made source run start (bodyCall source body before)
  | part {outer inner : Call} (made : Made source run start outer)
      (directly : Directly source outer inner) : Made source run start inner

/-- What is made by a call that is made is made as well. -/
theorem Made.follow {source : Source} {run : BodyRun} {start : Context} {outer inner : Call}
    (made : Made source run start outer)
    (path : Relation.ReflTransGen (Directly source) outer inner) : Made source run start inner := by
  induction path with
  | refl => exact made
  | tail _ directly inductionHypothesis => exact inductionHypothesis.part directly

/-! ### Parts of a call -/

section Parts

variable {source : Source} {taken : List Name} {fuel : Nat}

/-- Whatever happens in a part, it spares what was there. -/
theorem orderly_levels (source : Source) (taken : List Name) (fuel : Nat) :
    (levels source taken fuel).Orderly := by
  intro func awaited frames context poised manner part
  have steady : (Regime.sparing (fun _ => True) awaited context.builder).Steady source :=
    Regime.sparing.steady (fun _ _ => trivial) (fun ty state => (tame_mapType source ty state).mono
      (fun _ _ => id) fun _ _ _ => trivial) awaited context.builder
  have lowers := steady.within trivial (Regime.Fits.of_trivial (fun _ _ => trivial) (fun _ => trivial)
    fun _ _ => trivial) (fun _ _ => trivial) taken fuel part
  have rules : (Regime.sparing (fun _ => True) awaited context.builder).Rules context :=
    ⟨poised.rules.holds, poised.rules.frames⟩
  intro answer after returned
  cases manner with
  | value =>
    obtain ⟨same, rules', _⟩ := (lowers.expr context rules).of_ok returned
    exact ⟨same.frames.trans poised.around, rules'.holds⟩
  | place =>
    obtain ⟨same, rules', _⟩ := (lowers.place context rules).of_ok returned
    exact ⟨same.frames.trans poised.around, rules'.holds⟩

/-- A call starts within a function that is being built. -/
def Request.Ready (request : Request) (func : FuncId) : Prop :=
  Poised func request.before.builder.Has request.before.env.frames request.before

theorem Handed.ready {α : Type} {walk : Walk} {start : Context}
    {result : EStateM.Result Error Context α} {request : Request} {func : FuncId}
    (handed : Handed walk start request result) (here : start.builder.current = some func) :
    request.Ready func :=
  ⟨handed.work, handed.current.trans here, fun _ => id, rfl, handed.loop⟩

/-- A call that is handed on by a call that is handed on itself. -/
theorem Handed.trans {α : Type} {walk walk' : Walk} {start : Context} {outer inner : Request}
    {result : EStateM.Result Error Context α} (first : Handed walk start outer result)
    (second : Handed walk' outer.before inner (walk.outcome outer)) :
    Handed walk' start inner result where
  work := second.work
  loop := second.loop
  current := second.current.trans first.current
  blocks id found := second.blocks id (first.blocks id found)
  failed failed := by
    obtain ⟨middle, failed⟩ := second.failed failed
    exact first.failed failed
  returned {answer middle answer' after} answered returned := by
    cases ended : walk.outcome outer with
    | ok answer'' between =>
      exact (second.returned answered ended).trans (first.returned ended returned)
        fun id _ found => second.blocks id found
    | error cause between =>
      obtain ⟨_, failed⟩ := first.failed ended
      rw [failed] at returned
      cases returned

variable {outer inner : Call} {func : FuncId}

/-- A level of an expression, followed through its calls. A jump must know where to go. -/
theorem Request.Ready.followed {request : Request} {walk : Walk} (ready : request.Ready func)
    (orderly : walk.Orderly)
    (lands : request.manner = .value → request.before.Live → ∀ node jump,
      walk.program.arena.get? request.expr = some node → node.kind.jump? = some jump →
      (request.before.env.target? jump).isSome = true) :
    Followed walk (Seat walk request) func request.before.builder.Has request.before.env.frames
      (walk.level request.manner request.expr)
      (fun inner alarm => (walk.refusing inner alarm).level request.manner request.expr)
      request.before := by
  obtain ⟨manner, expr, before⟩ := request
  cases manner with
  | value => exact follows_node orderly expr (lands rfl) ready
  | place => exact follows_nodePlace orderly expr ready

/-- What makes a call does not end with an error of its own. -/
theorem not_raises_all {α : Type} (action : LowerM α) (context : Context)
    (raises : ∀ alarm, Raises action context alarm) : False := by
  obtain ⟨_, first⟩ := raises .malformedTree
  obtain ⟨_, second⟩ := raises .noInsertionPoint
  rw [first] at second
  cases second

/-- A construct makes the call if it ends with whatever error is in the place of the call. -/
theorem Followed.handed {α : Type} {walk : Walk} {seat : Request → Prop}
    {awaited : BlockId → Prop} {frames : List Frame} {action : LowerM α}
    {mirror : Request → Error → LowerM α} {context : Context} {request : Request}
    (followed : Followed walk seat func awaited frames action mirror context)
    (raises : ∀ alarm, Raises (mirror request alarm) context alarm) :
    seat request ∧ Handed walk context request (action context) := by
  rcases followed.reached request with same | ⟨_, seated, handed⟩
  · refine (not_raises_all action context fun alarm => ?_).elim
    obtain ⟨after, raised⟩ := raises alarm
    exact ⟨after, same alarm ▸ raised⟩
  · exact ⟨seated, handed⟩

/-- A jump is lowered without its parts. -/
theorem lowerNode_jump {walk : Walk} {expr : ExprId} {context : Context} {node : Node}
    {jump : LoopJump} (live : context.Live)
    (stored : walk.program.arena.get? expr = some node) (jumps : node.kind.jump? = some jump) :
    lowerNode walk expr context = lowerLoopJump jump node.span context := by
  obtain ⟨kind, span, ty⟩ := node
  have alive : isLive context = .ok true context := congrArg (EStateM.Result.ok · context) live
  have found : walk.node expr context = .ok ⟨kind, span, ty⟩ context := by
    rw [Walk.node, stored]
    rfl
  unfold lowerNode
  rw [run_bind alive]
  refine (run_bind found).trans ?_
  cases kind <;> cases jumps <;> rfl

theorem lowerLoopJump_astray {context : Context} {jump : LoopJump}
    (lost : context.env.target? jump = none) (span : Span) :
    lowerLoopJump jump span context = .error (.outsideLoop jump span) context := by
  have found : (get : LowerM Context) context = .ok context context := rfl
  unfold lowerLoopJump
  rw [run_bind found, lost]
  rfl

/-- What a call that is made directly goes through. -/
theorem Directly.followed (directly : Directly source outer inner) (ready : outer.Ready func) :
    Seat (levels source inner.taken inner.fuel) outer.toRequest inner.toRequest ∧
      Handed (levels source inner.taken inner.fuel) outer.before inner.toRequest
        (outer.outcome source) := by
  obtain ⟨taken, fuel, raises⟩ := directly
  have whole : outer.outcome source =
      (levels source inner.taken inner.fuel).level outer.manner outer.expr outer.before := by
    rw [Call.outcome, ← taken, ← fuel, Walk.outcome, lower_levels]
  rw [whole]
  -- a jump makes no calls, so that this one knows where to go
  have lands : outer.manner = .value → outer.before.Live → ∀ node jump,
      source.program.arena.get? outer.expr = some node → node.kind.jump? = some jump →
      (outer.before.env.target? jump).isSome = true := by
    intro value live node jump stored jumps
    have stuck : ∀ alarm, Raises (lowerLoopJump jump node.span) outer.before alarm := fun alarm => by
      obtain ⟨⟨manner, expr, before⟩, _, _⟩ := outer
      cases value
      obtain ⟨after, raised⟩ := raises alarm
      exact ⟨after, (lowerNode_jump live stored jumps).symm.trans raised⟩
    exact (not_raises_all _ _ stuck).elim
  exact (Request.Ready.followed ready (orderly_levels source inner.taken inner.fuel) lands).handed
    raises

end Parts

/-! ### Bodies -/

/-- A body, from its parameters to the return at its end. -/
def lowerBodyBy (lower : List Name → ExprId → LowerM Value) (source : Source)
    (decl : FunctionDecl) (func : FuncId) (ret : Ty) (body : ExprId) : LowerM Unit :=
  inScope decl.scope do
    bindParams source (source.program.addressTaken body) func 0 decl.params
    thenLive () (lower (source.program.addressTaken body) body) (finishBody ret)

section Bodies

variable {source : Source} {decl : FunctionDecl} {func : FuncId} {body : ExprId}
  {context : Context}

/-- Where the cursor is moved, the function is being built from then on. -/
theorem enter_of_found {builder : Builder} {function : Function}
    (found : builder.target.function? func = some function) :
    (builder.enter func).current = some func ∧ (builder.enter func).target = builder.target := by
  rw [Builder.enter]
  split
  · next here => exact ⟨here, rfl⟩
  · rw [found]
    exact ⟨rfl, rfl⟩

theorem returns_atWork (builder : Builder) (func : FuncId) (id : BlockId) :
    Returns (Build.positionAt func id) builder fun _ after =>
      after.AtWork ∧ after.current = some func ∧ after.cursor.isSome = true := by
  refine Build.returns_positionAt fun target same opened => ?_
  obtain ⟨function, block, stored, found, closed⟩ := Module.checkOpen_ok opened
  have entered : (Builder.enter { builder with target } func).current = some func ∧
      (Builder.enter { builder with target } func).target = target := enter_of_found stored
  obtain ⟨current, kept⟩ := entered
  have stored' : (Builder.enter { builder with target } func).target.function? func =
      some function := by rw [kept, stored]
  have body : Builder.body { Builder.enter { builder with target } func with
      cursor := some ⟨func, id⟩ } = function := Builder.body_of_found current stored'
  refine ⟨⟨⟨func, current, by rw [body]; exact stored'⟩, fun cursor positioned => ?_, ?_⟩, current,
    rfl⟩
  · cases positioned
    refine ⟨current, ?_, ?_⟩
    · rw [Builder.Has, body, found]
      rfl
    · rw [body, Function.exit?_of_block? found, closed]
  · rw [body]
    cases empty : function.blocks.isEmpty with
    | false => rfl
    | true =>
      rw [Function.block?, Array.getElem?_eq_none (by simp_all)] at found
      cases found

/-- What comes before a body does not depend on how bodies are lowered. -/
theorem lowerFunctionBy_entered (source : Source) (func : FuncId) (context : Context)
    (given : decl.body = some body) :
    (∃ cause after, cause.isStray = false ∧
      ∀ lower, lowerFunctionBy lower source decl func context = .error cause after) ∨
    ∃ ret inside, inside.env = context.env ∧ inside.builder.AtWork ∧
      inside.builder.current = some func ∧ inside.Live ∧
      ∀ lower, lowerFunctionBy lower source decl func context =
        inFunction ret (lowerBodyBy lower source decl func ret body) inside := by
  have unfolded : ∀ lower, lowerFunctionBy lower source decl func = (do
      let entry ← build (Build.ensureEntry func)
      let function ← build (Build.ask fun target => target.getFunction func)
      build (Build.positionAt func entry)
      inFunction function.ret (lowerBodyBy lower source decl func function.ret body)) := fun lower => by
    rw [lowerFunctionBy, given]
    rfl
  simp only [unfolded]
  cases entered : Build.ensureEntry func context.builder with
  | error cause after =>
    exact .inl ⟨cause, _, Error.isStray_of_isPlain
      ((Build.stays_ensureEntry func _).of_error entered),
      fun lower => run_bind_error (build_error entered)⟩
  | ok entry first =>
    simp only [run_bind (build_ok entered)]
    cases asked : Build.ask (fun target => target.getFunction func) first with
    | error cause after =>
      exact .inl ⟨cause, _, Error.isStray_of_isPlain
        ((Build.Stays.ask (Build.fair_getFunction func) _).of_error asked),
        fun lower => run_bind_error (build_error asked)⟩
    | ok function second =>
      have asked' : build (Build.ask fun target => target.getFunction func)
          { context with builder := first } = .ok function { context with builder := second } :=
        build_ok asked
      simp only [run_bind asked']
      cases moved : Build.positionAt func entry second with
      | error cause after =>
        exact .inl ⟨cause, _, Error.isStray_of_isPlain
          ((Build.ends_positionAt func entry _).of_error moved),
          fun lower => run_bind_error (build_error moved)⟩
      | ok _ third =>
        obtain ⟨work, current, live⟩ := returns_atWork second func entry _ _ moved
        exact .inr ⟨function.ret, { context with builder := third }, rfl, work, current, live,
          fun lower => run_bind (build_ok moved)⟩

/-- The call for the body of a function is made inside the frame of the function. -/
def BodySeat (frames : List Frame) (body : ExprId) (request : Request) : Prop :=
  request.manner = .value ∧ request.expr = body ∧ request.before.env.frames = frames

theorem follows_body (source : Source) (decl : FunctionDecl) (func : FuncId) (ret : Ty)
    (body : ExprId) (fuel : Nat) (context : Context) :
    Follows (levels source (source.program.addressTaken body) fuel)
      (BodySeat context.env.frames body) func (fun _ => False) context.env.frames
      (lowerBodyBy (fun taken body => lowerWithin source taken fuel body) source decl func ret body)
      (fun request alarm => lowerBodyBy
        (fun taken body => (levels source taken fuel).refused request alarm .value body) source decl
        func ret body) context := by
  have steady : ∀ base, (Regime.between (fun _ => False) base).Steady source :=
    Regime.between.steady source _
  refine .inScope ((Follows.names ((steady _).bindParams _ func 0 decl.params)).bind
    fun _ _ _ => ?_)
  refine (Follows.part (orderly_levels source _ _) .value fun same => ⟨rfl, rfl, same⟩).thenLive
    fun value _ => .done ((steady _).ret trivial)

theorem followed_body (source : Source) (decl : FunctionDecl) (body : ExprId) {context : Context}
    (work : context.builder.AtWork) (here : context.builder.current = some func) (ret : Ty) :
    Followed (levels source (source.program.addressTaken body) source.exprDepth)
      (BodySeat (context.env.pushFunction ret).frames body) func (fun _ => False)
      (context.env.pushFunction ret).frames (lowerBodyBy (lowerExpr source) source decl func ret body)
      (fun request alarm => lowerBodyBy (refusedBody source request alarm) source decl func ret body)
      { context with env := context.env.pushFunction ret } := by
  have loopless : LoopIn (fun _ => False) (context.env.pushFunction ret).frames := by
    rintro _ _ ⟨⟩ impossible
    cases impossible
  have lower : lowerExpr source = fun taken body => lowerWithin source taken source.exprDepth body :=
    rfl
  have refused : refusedBody source = fun request alarm taken body =>
      (levels source taken source.exprDepth).refused request alarm .value body := rfl
  rw [lower, refused]
  generalize source.exprDepth = fuel
  exact follows_body source decl func ret body fuel
    { context with env := context.env.pushFunction ret }
    ⟨work, here, fun _ => False.elim, rfl, loopless⟩

/-- A frame is entered and left without an error. -/
theorem inFunction_raises {action : LowerM Unit} {ret : Ty} {cause : Error} :
    Raises (inFunction ret action) context cause ↔
      Raises action { context with env := context.env.pushFunction ret } cause := by
  unfold Raises inFunction
  cases action { context with env := context.env.pushFunction ret } with
  | ok result after => simp
  | error cause' after => simp

theorem inFunction_ok {action : LowerM Unit} {ret : Ty} {after : Context}
    (returned : inFunction ret action context = .ok () after) : ∃ inside,
      action { context with env := context.env.pushFunction ret } = .ok () inside ∧
        inside.builder = after.builder := by
  unfold inFunction at returned
  cases ended : action { context with env := context.env.pushFunction ret } with
  | ok _ inside =>
    rw [ended] at returned
    cases returned
    exact ⟨inside, rfl, rfl⟩
  | error cause inside =>
    rw [ended] at returned
    cases returned

theorem inScope_raises {action : LowerM Unit} {scope : ScopeId} {cause : Error} :
    Raises (inScope scope action) context cause ↔ Raises action (context.enterScope scope) cause := by
  unfold Raises inScope
  cases action (context.enterScope scope) with
  | ok result after => simp
  | error cause' after => simp

theorem inScope_ok {action : LowerM Unit} {scope : ScopeId} {after : Context}
    (returned : inScope scope action context = .ok () after) :
    ∃ inside, action (context.enterScope scope) = .ok () inside := by
  unfold inScope at returned
  cases ended : action (context.enterScope scope) with
  | ok _ inside => exact ⟨inside, rfl⟩
  | error cause inside =>
    rw [ended] at returned
    cases returned

/-- The call for a body: it is the only one, and it is handed on. -/
theorem handed_body {before : Context} {body' : ExprId}
    (raises : ∀ alarm, Raises (lowerFunctionBy (refusedBody source ⟨.value, body', before⟩ alarm)
      source decl func) context alarm) :
    decl.body = some body' ∧ ∃ ret inside, inside.builder.current = some func ∧
      before.env.frames = (context.env.pushFunction ret).frames ∧
      Handed (levels source (source.program.addressTaken body') source.exprDepth) inside
        ⟨.value, body', before⟩ (lowerFunction source decl func context) := by
  cases given : decl.body with
  | none =>
    obtain ⟨_, raised⟩ := raises .malformedTree
    rw [lowerFunctionBy, given] at raised
    cases raised
  | some body =>
    obtain ⟨cause, after, _, failed⟩ | ⟨ret, inside, env, work, here, live, entered⟩ :=
      lowerFunctionBy_entered source func context given
    · have stuck : ∀ alarm, Raises (lowerFunction source decl func) context alarm := fun alarm => by
        obtain ⟨after', raised⟩ := raises alarm
        exact ⟨after', (failed (lowerExpr source)).trans ((failed _).symm.trans raised)⟩
      exact (not_raises_all _ _ stuck).elim
    · have entered' : lowerFunction source decl func context =
          inFunction ret (lowerBodyBy (lowerExpr source) source decl func ret body) inside :=
        entered (lowerExpr source)
      have raises' : ∀ alarm, Raises (lowerBodyBy (refusedBody source ⟨.value, body', before⟩ alarm)
          source decl func ret body) { inside with env := inside.env.pushFunction ret } alarm :=
        fun alarm => by
          obtain ⟨after, raised⟩ := raises alarm
          exact inFunction_raises.1 ⟨after, (entered _).symm.trans raised⟩
      have followed := followed_body source decl body work here ret
      obtain ⟨⟨_, rfl, around⟩, handed⟩ := followed.handed raises'
      refine ⟨rfl, ret, inside, here, env ▸ around, ?_⟩
      rw [entered']
      exact ⟨handed.work, handed.loop, handed.current, handed.blocks,
        fun failed => inFunction_raises.2 (handed.failed failed), fun answered returned => by
          obtain ⟨after, returned', same⟩ := inFunction_ok returned
          rw [← same]
          exact handed.returned answered returned'⟩

/-- A jump is blamed by the call for the body only. -/
theorem blamed_body {cause : Error} {after : Context} (stray : cause.isStray = true)
    (failed : lowerFunction source decl func context = .error cause after) :
    ∃ body before, (∀ alarm, Raises (lowerFunctionBy
      (refusedBody source ⟨.value, body, before⟩ alarm) source decl func) context alarm) ∧
      ∃ middle, (bodyCall source body before).outcome source = .error cause middle := by
  cases given : decl.body with
  | none =>
    rw [lowerFunction_external given] at failed
    cases failed
  | some body =>
    obtain ⟨cause', after', tame, failed'⟩ | ⟨ret, inside, env, work, here, live, entered⟩ :=
      lowerFunctionBy_entered source func context given
    · cases (failed' (lowerExpr source)).symm.trans failed
      rw [tame] at stray
      cases stray
    · have followed := followed_body source decl body work here ret
      obtain ⟨last, failed'⟩ :=
        inFunction_raises.1 ⟨after, (entered (lowerExpr source)).symm.trans failed⟩
      obtain ⟨⟨_, expr, before⟩, ⟨rfl, rfl, _⟩, fails, raised⟩ :=
        followed.keeps.of_error failed' stray
      exact ⟨expr, before, fun alarm => by
        obtain ⟨after, raised⟩ := inFunction_raises.2 (raised alarm)
        exact ⟨after, (entered _).trans raised⟩, fails⟩

end Bodies

/-! ### Runs -/

section Runs

variable {source : Source} {decl : FunctionDecl} {func : FuncId} {context : Context} {call : Call}

/-- The calls that are made while one function is lowered. -/
abbrev MadeIn (source : Source) (decl : FunctionDecl) (func : FuncId) (context : Context) :
    Call → Prop :=
  Made source (fun lower => lowerFunctionBy lower source decl func) context

/-- Every call of a function is handed on to its end. -/
theorem handed_of_made (made : MadeIn source decl func context call) :
    ∃ start : Context, start.builder.current = some func ∧
      Handed (levels source call.taken call.fuel) start call.toRequest
        (lowerFunction source decl func context) := by
  induction made with
  | body raises =>
    obtain ⟨_, ret, inside, here, _, handed⟩ := handed_body raises
    exact ⟨inside, here, handed⟩
  | part made directly inductionHypothesis =>
    obtain ⟨start, here, handed⟩ := inductionHypothesis
    exact ⟨start, here, handed.trans (directly.followed (handed.ready here)).2⟩

theorem ready_of_made (made : MadeIn source decl func context call) : call.Ready func := by
  obtain ⟨start, here, handed⟩ := handed_of_made made
  exact handed.ready here

/-- The call is for the value of a jump, and control gets there. -/
structure Call.Jumps (call : Call) (source : Source) (jump : LoopJump) (span : Span) : Prop where
  whole : call.manner = .value
  live : call.before.Live
  node : ∃ node, source.program.arena.get? call.expr = some node ∧
    node.kind.jump? = some jump ∧ node.span = span

/-- A jump ends as it ends alone, unless there are no levels left. -/
theorem Call.Jumps.outcome {jump : LoopJump} {span : Span} (jumps : call.Jumps source jump span)
    (deep : 0 < call.fuel) :
    match lowerLoopJump jump span call.before with
    | .ok _ after => ∃ answer, call.outcome source = .ok answer after
    | .error cause after => call.outcome source = .error cause after := by
  obtain ⟨⟨manner, expr, before⟩, taken, fuel⟩ := call
  obtain ⟨rfl, live, node, stored, jumps, rfl⟩ := jumps
  cases fuel with
  | zero => cases deep
  | succ fuel =>
    have same : Call.outcome ⟨⟨.value, expr, before⟩, taken, fuel + 1⟩ source =
        lowerLoopJump jump node.span before := lowerNode_jump live stored jumps
    rw [same]
    cases lowerLoopJump jump node.span before with
    | ok value after => exact ⟨value, rfl⟩
    | error cause after => rfl

/-- A call that blames a jump makes a call for a jump that does not know where to go. -/
theorem stray_of_failed {cause : Error} {after : Context} (ready : call.Ready func)
    (stray : cause.isStray = true) (failed : call.outcome source = .error cause after) :
    ∃ inner jump span, Relation.ReflTransGen (Directly source) call inner ∧
      inner.Jumps source jump span ∧ inner.before.env.target? jump = none ∧
      cause = .outsideLoop jump span := by
  obtain ⟨⟨manner, expr, before⟩, taken, fuel⟩ := call
  induction fuel generalizing manner expr before after with
  | zero =>
    have malformed : cause = .malformedTree := by
      cases manner <;> cases failed <;> rfl
    rw [malformed] at stray
    cases stray
  | succ fuel inductionHypothesis =>
    rw [Call.outcome, Walk.outcome, lower_levels] at failed
    by_cases lands : manner = .value → before.Live → ∀ node jump,
        source.program.arena.get? expr = some node → node.kind.jump? = some jump →
        (before.env.target? jump).isSome = true
    · have followed := Request.Ready.followed ready (orderly_levels source taken fuel) lands
      obtain ⟨inner, _, ⟨middle, fails⟩, raises⟩ := followed.keeps.of_error failed stray
      have directly : Directly source ⟨⟨manner, expr, before⟩, taken, fuel + 1⟩
          ⟨inner, taken, fuel⟩ := ⟨rfl, rfl, raises⟩
      have ready' := (directly.followed ready).2.ready ready.here
      obtain ⟨last, jump, span, path, rest⟩ := inductionHypothesis inner.manner inner.expr
        inner.before ready' fails
      exact ⟨last, jump, span, path.head directly, rest⟩
    · push Not at lands
      obtain ⟨rfl, live, node, jump, stored, jumps, lost⟩ := lands
      have lost : before.env.target? jump = none := by simpa using lost
      refine ⟨_, jump, node.span, .refl, ⟨rfl, live, node, stored, jumps, rfl⟩, lost, ?_⟩
      have ended : lowerNode (levels source taken fuel) expr before = .error cause after := failed
      rw [lowerNode_jump live stored jumps, lowerLoopJump_astray lost] at ended
      cases ended
      rfl

/-! ### What is made -/

theorem builder_of_build {α : Type} {action : BuildM α} {result : α} {after : Context}
    (returned : build action context = .ok result after) :
    action context.builder = .ok result after.builder := by
  cases ended : action context.builder with
  | ok result' builder =>
    rw [build_ok ended] at returned
    cases returned
    rfl
  | error cause builder =>
    rw [build_error ended] at returned
    cases returned

/-- Parameters do not close the entry block. -/
theorem live_bindParams {taken : List Name} {position : Nat} {params : List Tree.Param}
    {after : Context} (live : context.Live)
    (returned : bindParams source taken func position params context = .ok () after) :
    after.Live := by
  induction params generalizing context position with
  | nil =>
    cases returned
    exact live
  | cons param params inductionHypothesis =>
    obtain ⟨function, first, asked, returned⟩ := run_bind_ok returned
    have asked := ((Build.Stays.ask (Build.fair_getFunction func) _).of_ok
      (builder_of_build asked)).cursor
    cases found : function.paramValue? position with
    | none =>
      rw [found] at returned
      cases returned
    | some value =>
      rw [found] at returned
      obtain ⟨_, second, bound, returned⟩ := run_bind_ok returned
      refine inductionHypothesis ?_ returned
      unfold bindParam at bound
      split at bound
      · obtain ⟨place, _, spilled, bound⟩ := run_bind_ok bound
        obtain ⟨address, _, _, spilled⟩ := run_bind_ok spilled
        obtain ⟨_, _, stored, spilled⟩ := run_bind_ok spilled
        cases spilled
        cases bound
        exact ((Build.stays_store _ _ _).of_ok (builder_of_build stored)).live rfl
      · cases bound
        exact live.of_same asked

/-- A function that is lowered has its body lowered. -/
theorem made_of_returned {body : ExprId} {after : Context} (given : decl.body = some body)
    (returned : lowerFunction source decl func context = .ok () after) : ∃ before answer middle,
      MadeIn source decl func context (bodyCall source body before) ∧ before.Live ∧
        (bodyCall source body before).outcome source = .ok answer middle := by
  obtain ⟨cause, after', _, failed⟩ | ⟨ret, inside, env, work, here, live, entered⟩ :=
    lowerFunctionBy_entered source func context given
  · cases (failed (lowerExpr source)).symm.trans returned
  · obtain ⟨last, ended, _⟩ := inFunction_ok ((entered (lowerExpr source)).symm.trans returned)
    obtain ⟨_, ended⟩ := inScope_ok ended
    obtain ⟨_, before, bound, ended⟩ := run_bind_ok ended
    obtain ⟨answer, middle, lowered, _⟩ := run_bind_ok ended
    have alive : (Context.enterScope { inside with env := inside.env.pushFunction ret }
        decl.scope).Live := live
    refine ⟨before, answer, middle, .body fun alarm => ?_, live_bindParams alive bound,
      (outcome_bodyCall source body before).trans lowered⟩
    obtain ⟨after', raised⟩ : Raises (inFunction ret (lowerBodyBy
        (refusedBody source ⟨.value, body, before⟩ alarm) source decl func ret body)) inside alarm :=
      inFunction_raises.2 (inScope_raises.2 ⟨before, (run_bind bound).trans
        (run_bind_error (refusedBody_self source body before alarm))⟩)
    exact ⟨after', (entered _).trans raised⟩

end Runs

end TreeLowering.Lowering
