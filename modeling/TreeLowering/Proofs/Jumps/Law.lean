/-
This file proves that jumps reach the innermost loop around them. The stack of loops that lowering
keeps says, at every call, what the shape of the body says: the innermost loop is the one whose body
the expression lies in. So a jump in the body of a loop closes its block with a jump to an edge of
that loop, and only a jump in no loop is blamed.
-/

import TreeLowering.Proofs.Blame
import TreeLowering.Proofs.Calls.Made
import TreeLowering.Proofs.Calls.Unfold
import TreeLowering.Proofs.Jumps.Tree
import TreeLowering.Proofs.Meaning.Loop

namespace TreeLowering.Lowering

open TreeLowering.Ir TreeLowering.Tree Relation

/-! ### The loop around a call -/

/-- The call lowers a loop with the given edges, and `inside` is the call it makes for the body of
the loop. -/
structure Call.Opens (call : Call) (source : Source) (targets : LoopTargets) (inside : Call) :
    Prop where
  whole : call.manner = .value
  directly : Directly source call inside
  opened : ∃ node part after, source.program.arena.get? call.expr = some node ∧
    node.kind.loopBody? = some part ∧
    opening (levels source inside.taken inside.fuel) node call.before = .ok targets after ∧
    inside.toRequest = ⟨.value, part, { after with env := after.env.pushLoop targets }⟩

section Around

variable {source : Source} {decl : FunctionDecl} {func : FuncId} {context : Context} {call : Call}
  {body : ExprId}

/-- The loop around a call, as lowering keeps it. -/
def LoopAround (source : Source) (decl : FunctionDecl) (func : FuncId) (context : Context)
    (call : Call) : Option ExprId → Prop
  | none => call.before.env.innermostLoop? = none
  | some loop => ∃ outer targets inside, MadeIn source decl func context outer ∧
      outer.expr = loop ∧ outer.Opens source targets inside ∧
      ReflTransGen (Directly source) inside call ∧
      call.before.env.innermostLoop? = some targets

/-- The innermost loop depends on the frames only. -/
theorem innermostLoop?_of_frames {first second : Env} (same : first.frames = second.frames) :
    first.innermostLoop? = second.innermostLoop? := by
  unfold Env.innermostLoop?
  rw [same]

theorem innermostLoop?_pushLoop {env : Env} (targets : LoopTargets) (framed : env.frames ≠ []) :
    (env.pushLoop targets).innermostLoop? = some targets := by
  obtain ⟨scopes, frames⟩ := env
  cases frames with
  | nil => exact absurd rfl framed
  | cons frame outer => rfl

theorem frames_pushLoop_ne {env : Env} (targets : LoopTargets) (framed : env.frames ≠ []) :
    (env.pushLoop targets).frames ≠ [] := by
  obtain ⟨scopes, frames⟩ := env
  cases frames with
  | nil => exact absurd rfl framed
  | cons frame outer => exact List.cons_ne_nil _ _

/-- Lowering keeps the innermost loop around every expression. -/
theorem innermost_of_made (given : decl.body = some body)
    (made : MadeIn source decl func context call) :
    call.before.env.frames ≠ [] ∧ ∃ loop?,
      source.program.arena.Innermost body call.expr loop? ∧
        LoopAround source decl func context call loop? := by
  induction made with
  | body raises =>
    obtain ⟨given', ret, inside, _, frames, _⟩ := handed_body raises
    cases given.symm.trans given'
    refine ⟨by rw [bodyCall, frames]; exact List.cons_ne_nil _ _, none, .body, ?_⟩
    show Env.innermostLoop? _ = none
    rw [bodyCall, innermostLoop?_of_frames frames]
    rfl
  | @part outer inner made directly inductionHypothesis =>
    obtain ⟨framed, loop?, innermost, around⟩ := inductionHypothesis
    -- a part in the same loop
    have same : inner.before.env.frames = outer.before.env.frames →
        inner.before.env.frames ≠ [] ∧ LoopAround source decl func context inner loop? := by
      intro frames
      refine ⟨frames ▸ framed, ?_⟩
      cases loop? with
      | none => exact (innermostLoop?_of_frames frames).trans around
      | some loop =>
        obtain ⟨first, targets, inside, made, expr, opens, path, found⟩ := around
        exact ⟨first, targets, inside, made, expr, opens, path.tail directly,
          (innermostLoop?_of_frames frames).trans found⟩
    obtain ⟨seat, _⟩ := directly.followed (ready_of_made made)
    obtain ⟨⟨manner, expr, before⟩, taken, fuel⟩ := inner
    cases seat with
    | part stored member frames =>
      obtain ⟨framed', around'⟩ := same frames
      exact ⟨framed', loop?, innermost.straight stored member, around'⟩
    | self stored other turns frames =>
      obtain ⟨framed', around'⟩ := same frames
      exact ⟨framed', loop?, innermost, around'⟩
    | @body node part targets after stored whole looped opened frames =>
      have framed' : after.env.frames ≠ [] := frames ▸ framed
      exact ⟨frames_pushLoop_ne targets framed', some outer.expr, innermost.looped stored looped,
        outer, targets, _, made, rfl, ⟨whole, directly, node, _, after, stored, looped, opened, rfl⟩,
        .refl, innermostLoop?_pushLoop targets framed'⟩

/-! ### Depth -/

/-- An expression that is lowered by a call of its own once more, for its value or its place, is at
its second call. -/
def Call.Turned (call : Call) (source : Source) : Prop :=
  ∃ node, source.program.arena.get? call.expr = some node ∧
    (node.kind.isPlace = true ↔ call.manner = .place)

/-- In a tree the calls never reach the bound on the depth. -/
theorem fuel_of_made (given : decl.body = some body) (tree : source.program.arena.IsTree body)
    (made : MadeIn source decl func context call) :
    2 * source.exprRank call.expr ≤ call.fuel ∨
      call.Turned source ∧ 2 * source.exprRank call.expr ≤ call.fuel + 1 := by
  induction made with
  | @body expr before raises =>
    have most : source.exprRank expr ≤ source.program.arena.size := rank_le expr
    left
    show 2 * source.exprRank expr ≤ source.exprDepth
    unfold Source.exprDepth
    omega
  | @part outer inner made directly inductionHypothesis =>
    obtain ⟨_, loop?, innermost, _⟩ := innermost_of_made given made
    have fuel := directly.fuel
    have less : ∀ {part node}, source.program.arena.get? outer.expr = some node →
        part ∈ node.kind.children →
        source.exprRank part < source.exprRank outer.expr := fun stored member =>
      rank_lt (tree.acyclic innermost.contained) (inside_of_get? stored) ⟨_, stored, member⟩
    obtain ⟨seat, _⟩ := directly.followed (ready_of_made made)
    obtain ⟨⟨manner, expr, before⟩, taken, fuel'⟩ := inner
    have bound : 2 * source.exprRank outer.expr ≤ fuel' + 2 := by
      dsimp only at fuel
      rcases inductionHypothesis with enough | ⟨_, enough⟩ <;> omega
    cases seat with
    | part stored member frames =>
      have := less stored (ExprKind.mem_children_of_straight member)
      left
      dsimp only
      omega
    | self stored other turns frames =>
      rcases inductionHypothesis with enough | ⟨⟨node, stored', turned⟩, _⟩
      · refine .inr ⟨⟨_, stored, ?_⟩, ?_⟩
        · cases manner <;> cases whole : outer.manner <;> simp_all
        · dsimp only at fuel ⊢
          omega
      · cases stored.symm.trans stored'
        cases whole : outer.manner <;> simp_all
    | body stored whole looped opened frames =>
      have := less stored (ExprKind.mem_children_of_loopBody? looped)
      left
      dsimp only
      omega

end Around

/-! ### Leaving a loop -/

section Leaving

variable {walk : Walk} {context after later : Context} {targets : LoopTargets} {value : Value}

theorem here_of_positionAt {func : FuncId} {id : BlockId}
    (moved : build (Build.positionAt func id) context = .ok () after) :
    after.builder.here? = some id := by
  have placed : Returns (Build.positionAt func id) context.builder fun _ after =>
      after.here? = some id := Build.returns_positionAt fun _ _ _ => rfl
  exact placed _ _ (builder_of_build moved)

theorem live_of_terminate {terminator : Terminator}
    (closed : build (Build.terminate terminator) context = .ok () after) : context.Live := by
  have closed := builder_of_build closed
  obtain ⟨cursor, _, asked, _⟩ := run_bind_ok closed
  unfold Build.insertionPoint at asked
  obtain ⟨builder, _, ⟨⟩, asked⟩ := run_bind_ok asked
  cases positioned : context.builder.cursor with
  | none =>
    rw [positioned] at asked
    cases asked
  | some cursor =>
    rw [Context.Live, positioned]
    rfl

theorem cursor_of_newBlock {hint : String} {id : BlockId}
    (made : build (Build.newBlock hint) context = .ok id after) :
    after.builder.cursor = context.builder.cursor :=
  ((Build.stays_newBlock hint _).of_ok (builder_of_build made)).cursor

theorem cursor_of_currentFunction {func : FuncId}
    (found : currentFunction context = .ok func after) :
    after.builder.cursor = context.builder.cursor :=
  ((Build.stays_currentFunction _).of_ok (builder_of_build found)).cursor

theorem context_of_expectBool {span : Span}
    (checked : expectBool value span context = .ok () after) : after = context := by
  unfold expectBool at checked
  split at checked
  · cases checked
    rfl
  · cases checked

/-- Behind an endless loop control goes on in the block that `break` leads to. -/
theorem here_of_lowerLoop {body : ExprId} {ty : TypeId}
    (returned : lowerLoop walk body ty context = .ok value after)
    (opened : openLoop context = .ok targets later) :
    after.builder.here? = some targets.breakTo := by
  obtain ⟨func, _, found, returned⟩ := run_bind_ok returned
  obtain ⟨bodyBlock, _, made, returned⟩ := run_bind_ok returned
  obtain ⟨exit, _, made', returned⟩ := run_bind_ok returned
  obtain ⟨_, _, jumped, returned⟩ := run_bind_ok returned
  obtain ⟨_, _, looped, returned⟩ := run_bind_ok returned
  obtain ⟨_, _, moved, _⟩ := run_bind_ok looped
  obtain ⟨_, _, left, returned⟩ := run_bind_ok returned
  cases returned
  unfold openLoop at opened
  rw [run_bind found, run_bind made, run_bind made', run_bind jumped, run_bind moved] at opened
  cases opened
  exact here_of_positionAt left

/-- Behind a `while` loop control goes on in the block that `break` leads to. -/
theorem here_of_lowerWhile {test body : ExprId} {span : Span}
    (returned : lowerWhile walk test body span context = .ok value after)
    (opened : openWhile walk test span context = .ok targets later) :
    after.builder.here? = some targets.breakTo := by
  obtain ⟨func, _, found, returned⟩ := run_bind_ok returned
  obtain ⟨testBlock, _, made, returned⟩ := run_bind_ok returned
  obtain ⟨_, _, jumped, returned⟩ := run_bind_ok returned
  obtain ⟨_, _, moved, returned⟩ := run_bind_ok returned
  obtain ⟨result, middle, tested, returned⟩ := run_bind_ok returned
  unfold openWhile at opened
  rw [run_bind found, run_bind made, run_bind jumped, run_bind moved, run_bind tested] at opened
  obtain ⟨_, _, checked, opened⟩ := run_bind_ok opened
  obtain ⟨bodyBlock, _, made', opened⟩ := run_bind_ok opened
  obtain ⟨exit, _, made'', opened⟩ := run_bind_ok opened
  obtain ⟨_, _, branched, opened⟩ := run_bind_ok opened
  obtain ⟨_, _, moved', opened⟩ := run_bind_ok opened
  cases opened
  -- the branch needs a cursor, and nothing since the condition has moved it
  have live : isLive middle = .ok true middle := by
    have needed := live_of_terminate branched
    rw [Context.Live, cursor_of_newBlock made'', cursor_of_newBlock made',
      context_of_expectBool checked] at needed
    exact congrArg (EStateM.Result.ok · middle) needed
  rw [run_bind live, if_pos rfl] at returned
  dsimp only at returned
  rw [run_bind checked, run_bind made', run_bind made'', run_bind branched] at returned
  obtain ⟨_, _, looped, returned⟩ := run_bind_ok returned
  obtain ⟨_, _, left, returned⟩ := run_bind_ok returned
  cases returned
  exact here_of_positionAt left

/-- A loop is opened where control gets to. -/
theorem live_of_opening {node : Node} (opened : opening walk node context = .ok targets later) :
    context.Live := by
  obtain ⟨kind, span, ty⟩ := node
  cases kind with
  | whileLoop test body =>
    obtain ⟨func, first, found, opened⟩ := run_bind_ok opened
    obtain ⟨testBlock, _, made, opened⟩ := run_bind_ok opened
    obtain ⟨_, _, jumped, _⟩ := run_bind_ok opened
    have live := live_of_terminate jumped
    rwa [Context.Live, cursor_of_newBlock made, cursor_of_currentFunction found] at live
  | loop body =>
    obtain ⟨func, first, found, opened⟩ := run_bind_ok opened
    obtain ⟨bodyBlock, _, made, opened⟩ := run_bind_ok opened
    obtain ⟨exit, _, made', opened⟩ := run_bind_ok opened
    obtain ⟨_, _, jumped, _⟩ := run_bind_ok opened
    have live := live_of_terminate jumped
    rwa [Context.Live, cursor_of_newBlock made', cursor_of_newBlock made,
      cursor_of_currentFunction found] at live
  | _ => cases opened

/-- Behind a loop control goes on in the block that `break` leads to. -/
theorem Call.Opens.leaves {source : Source} {call inside : Call} {answer : call.manner.Answer}
    (opens : call.Opens source targets inside) (returned : call.outcome source = .ok answer after) :
    after.builder.here? = some targets.breakTo := by
  obtain ⟨whole, ⟨taken, fuel, _⟩, ⟨kind, span, ty⟩, part, later, stored, looped, opened, _⟩ := opens
  obtain ⟨⟨manner, expr, before⟩, taken', fuel'⟩ := call
  dsimp only at whole taken fuel stored opened
  subst whole taken fuel
  have live : isLive before = .ok true before :=
    congrArg (EStateM.Result.ok · before) (live_of_opening opened)
  have found : (levels source inside.taken inside.fuel).node expr before =
      .ok ⟨kind, span, ty⟩ before := by
    rw [Walk.node, stored]
    rfl
  have entered : lowerNode (levels source inside.taken inside.fuel) expr before =
      .ok answer after := returned
  unfold lowerNode at entered
  rw [run_bind live] at entered
  replace entered := (run_bind found).symm.trans entered
  cases kind with
  | whileLoop test body => exact here_of_lowerWhile entered opened
  | loop body => exact here_of_lowerLoop entered opened
  | _ => cases looped

/-- An endless loop that is lowered has its body lowered. -/
theorem opens_of_returned {source : Source} {call : Call} {part : ExprId} {span : Span}
    {ty : TypeId} {answer : call.manner.Answer} (whole : call.manner = .value)
    (live : call.before.Live)
    (stored : source.program.arena.get? call.expr = some ⟨.loop part, span, ty⟩)
    (returned : call.outcome source = .ok answer after) :
    ∃ targets inside, call.Opens source targets inside ∧ inside.manner = .value ∧
      inside.expr = part ∧ inside.before.Live := by
  obtain ⟨⟨manner, expr, before⟩, taken, fuel⟩ := call
  dsimp only at whole live stored
  subst whole
  cases fuel with
  | zero => cases returned
  | succ fuel =>
    have lowered : lowerNode (levels source taken fuel) expr before = .ok answer after := returned
    rw [lowerNode_loop live stored] at lowered
    obtain ⟨func, _, found, lowered⟩ := run_bind_ok lowered
    obtain ⟨bodyBlock, _, made, lowered⟩ := run_bind_ok lowered
    obtain ⟨exit, _, made', lowered⟩ := run_bind_ok lowered
    obtain ⟨_, _, jumped, lowered⟩ := run_bind_ok lowered
    obtain ⟨_, _, looped, _⟩ := run_bind_ok lowered
    obtain ⟨_, start, moved, _⟩ := run_bind_ok looped
    have opened : openLoop before = .ok ⟨exit, bodyBlock⟩ start := by
      unfold openLoop
      rw [run_bind found, run_bind made, run_bind made', run_bind jumped, run_bind moved]
      rfl
    let inside : Context := { start with env := start.env.pushLoop ⟨exit, bodyBlock⟩ }
    have raises : ∀ alarm, Raises (lowerNode ((levels source taken fuel).refusing
        ⟨.value, part, inside⟩ alarm) expr) before alarm := by
      intro alarm
      have refused : inLoop ⟨exit, bodyBlock⟩ ((levels source taken fuel).refused
          ⟨.value, part, inside⟩ alarm .value part) start =
            .error alarm { inside with env := inside.env.popLoop } := by
        unfold inLoop
        rw [Walk.refused_self]
      refine ⟨{ inside with env := inside.env.popLoop }, ?_⟩
      rw [lowerNode_loop live stored]
      unfold lowerLoop
      rw [run_bind found, run_bind made, run_bind made', run_bind jumped]
      refine run_bind_error ?_
      unfold lowerLoopBody
      rw [run_bind moved]
      exact run_bind_error refused
    refine ⟨⟨exit, bodyBlock⟩, ⟨⟨.value, part, inside⟩, taken, fuel⟩,
      ⟨rfl, ⟨rfl, rfl, raises⟩, _, part, start, stored, rfl, opened, rfl⟩, rfl, rfl, ?_⟩
    · have placed := ((Build.ends_positionAt func bodyBlock _).of_ok (builder_of_build moved)).1
      exact placed

end Leaving

/-! ### Jumps -/

/-- Where there is a cursor, its block can be closed. -/
theorem Builder.AtWork.terminate {now : Builder} {cursor : Cursor} (work : now.AtWork)
    (positioned : now.cursor = some cursor) (terminator : Terminator) :
    ∃ later, Build.terminate terminator now = .ok () later ∧ later.current = now.current ∧
      later.body.exit? cursor.block = some terminator := by
  obtain ⟨current, has, opened⟩ := work.cursor cursor positioned
  obtain ⟨block, found⟩ := Option.isSome_iff_exists.1 has
  let later : Builder := { now with
    cursor := none
    target := now.target.modifyBlock cursor.func cursor.block fun found =>
      found.terminate terminator }
  have asked : Build.ask (fun target => target.checkOpen cursor.func cursor.block) now =
      .ok () now := by
    rw [Build.ask, Module.checkOpen_of_found (work.found current) has opened]
  refine ⟨later, ?_, rfl, ?_⟩
  · unfold Build.terminate
    rw [run_bind (run_insertionPoint positioned)]
    unfold Build.terminateAt
    rw [bind_assoc, run_bind asked]
    rfl
  · have body : later.body = now.body.modifyBlock cursor.block fun found =>
        found.terminate terminator := (work.changed later (fun function =>
          function.modifyBlock cursor.block fun found => found.terminate terminator)
        current rfl rfl).2
    rw [body, Function.exit?_terminate found, if_pos rfl]

/-! ### The law -/

section Law

variable {source : Source} {decl : FunctionDecl} {func : FuncId} {context : Context}
  {body : ExprId} {call : Call} {jump : LoopJump} {span : Span}

/-- The jump that the call lowers closes the block at the cursor with a jump to an edge of the loop,
which stays so to the end of the function. The call is made inside the body of that loop, and the
block that `break` leads to is where control goes on behind the loop. -/
def LandsIn (source : Source) (decl : FunctionDecl) (func : FuncId) (context : Context)
    (call : Call) (jump : LoopJump) (loop : ExprId) : Prop :=
  ∃ outer targets inside cursor answer after,
    MadeIn source decl func context outer ∧ outer.expr = loop ∧
    outer.Opens source targets inside ∧ ReflTransGen (Directly source) inside call ∧
    call.before.builder.cursor = some cursor ∧ call.outcome source = .ok answer after ∧
    after.builder.body.exit? cursor.block = some (.jump (targets.edge jump)) ∧
    (∀ {answer' later}, outer.outcome source = .ok answer' later →
      later.builder.here? = some targets.breakTo) ∧
    ∀ {last}, lowerFunction source decl func context = .ok () last → ∃ function,
      last.builder.target.function? func = some function ∧
        function.exit? cursor.block = some (.jump (targets.edge jump))

/-- A jump in no loop ends the lowering of its function. -/
theorem stray_fails (deep : 0 < call.fuel) (made : MadeIn source decl func context call)
    (jumps : call.Jumps source jump span) (lost : call.before.env.innermostLoop? = none) :
    ∃ after, lowerFunction source decl func context = .error (.outsideLoop jump span) after := by
  have nowhere : call.before.env.target? jump = none := by rw [Env.target?, lost]; rfl
  have ended := jumps.outcome deep
  rw [lowerLoopJump_astray nowhere] at ended
  obtain ⟨_, _, handed⟩ := handed_of_made made
  exact handed.failed ended

/-- A jump in a loop closes its block. -/
theorem jump_lands (deep : 0 < call.fuel) (made : MadeIn source decl func context call)
    (jumps : call.Jumps source jump span) {loop : ExprId}
    (around : LoopAround source decl func context call (some loop)) :
    LandsIn source decl func context call jump loop := by
  obtain ⟨outer, targets, inside, made', rfl, opens, path, innermost⟩ := around
  obtain ⟨cursor, positioned⟩ := Option.isSome_iff_exists.1 jumps.live
  have found : call.before.env.target? jump = some (targets.edge jump) := by
    rw [Env.target?, innermost]
    rfl
  obtain ⟨later, closed, same, exit⟩ :=
    (ready_of_made made).work.terminate positioned (.jump (targets.edge jump))
  have ended := jumps.outcome deep
  have jumped : lowerLoopJump jump span call.before =
      .ok .unreachable { call.before with builder := later } := by
    have asked : (get : LowerM Context) call.before = .ok call.before call.before := rfl
    unfold lowerLoopJump
    rw [run_bind asked, found]
    exact run_bind (build_ok closed)
  rw [jumped] at ended
  obtain ⟨answer, ended⟩ := ended
  refine ⟨outer, targets, inside, cursor, answer, _, made', rfl, opens, path, positioned, ended,
    exit, opens.leaves, fun {last} returned => ?_⟩
  obtain ⟨start, here, handed⟩ := handed_of_made made
  have spares := handed.returned ended returned
  have current : last.builder.current = some func :=
    spares.current.trans (same.trans (ready_of_made made).here)
  exact ⟨_, spares.work.found current, spares.exits _ _ exit⟩

/-- In a body that is a tree, a jump in the body of a loop goes to an edge of the innermost such
loop, and a jump that is in none ends the run, which blames a jump in no other case. -/
theorem lowerFunction_jumps (given : decl.body = some body)
    (tree : source.program.arena.IsTree body) :
    (∀ call jump span, MadeIn source decl func context call → call.Jumps source jump span →
      (∀ loop, source.program.arena.Innermost body call.expr (some loop) →
        LandsIn source decl func context call jump loop) ∧
      ((∀ loop, ¬ source.program.arena.Innermost body call.expr (some loop)) →
        ∃ after, lowerFunction source decl func context =
          .error (.outsideLoop jump span) after)) ∧
    ∀ jump span after, lowerFunction source decl func context =
        .error (.outsideLoop jump span) after →
      ∃ call, MadeIn source decl func context call ∧ call.Jumps source jump span ∧
        ∀ loop, ¬ source.program.arena.Innermost body call.expr (some loop) := by
  refine ⟨fun call jump span made jumps => ?_, fun jump span after failed => ?_⟩
  · have deep : 0 < call.fuel := by
      obtain ⟨node, stored, _⟩ := jumps.node
      have positive : 0 < source.exprRank call.expr := rank_pos (inside_of_get? stored)
      rcases fuel_of_made given tree made with enough | ⟨_, enough⟩ <;> omega
    obtain ⟨_, loop?, innermost, around⟩ := innermost_of_made given made
    refine ⟨fun loop inside => ?_, fun outside => ?_⟩
    · obtain rfl := innermost.unique tree inside
      exact jump_lands deep made jumps around
    · cases loop? with
      | none => exact stray_fails deep made jumps around
      | some loop => exact absurd innermost (outside loop)
  · obtain ⟨body', before, raises, middle, blamed⟩ := blamed_body rfl failed
    have made : MadeIn source decl func context (bodyCall source body' before) := .body raises
    obtain ⟨inner, jump', span', path, jumps, lost, same⟩ :=
      stray_of_failed (ready_of_made made) rfl blamed
    cases same
    have made' := made.follow path
    refine ⟨inner, made', jumps, fun loop inside => ?_⟩
    obtain ⟨_, loop?, innermost, around⟩ := innermost_of_made given made'
    obtain rfl := innermost.unique tree inside
    obtain ⟨_, targets, _, _, _, _, _, found⟩ := around
    rw [Env.target?, found] at lost
    cases lost

end Law

/-! ### Two jumps -/

/-- `fn jumps() { loop { break } }` and `fn jumps() { continue }` -/
def twoJumps : Source where
  names := (NameTable.initial.intern "jumps").2
  program :=
    { types := .initial
      scopes := .initial
      arena := ⟨#[⟨.breakLoop, .nowhere, .never⟩, ⟨.loop ⟨0⟩, .nowhere, .unit⟩,
        ⟨.continueLoop, .nowhere, .never⟩]⟩
      items := [] }

/-- A function without parameters, and its body. -/
def jumping (body : ExprId) : FunctionDecl where
  name := ⟨1⟩
  link := ⟨1⟩
  params := []
  ret := .unit
  body := some body
  scope := .root
  span := .nowhere

/-- The function is declared and has no blocks yet. -/
def beforeJumps : Context :=
  let start := Context.start .standard
  { start with
    builder := { start.builder with
      target := start.builder.target.addFunction (.declared "jumps" [] .unit) rfl } }

/-- A `break` leads out of its loop, and a `continue` without a loop is blamed. -/
theorem lowerFunction_jumps_twoJumps :
    (twoJumps.program.arena.IsTree ⟨1⟩ ∧ ∃ call,
      MadeIn twoJumps (jumping ⟨1⟩) ⟨0⟩ beforeJumps call ∧ call.Jumps twoJumps .leave .nowhere ∧
        LandsIn twoJumps (jumping ⟨1⟩) ⟨0⟩ beforeJumps call .leave ⟨1⟩) ∧
    twoJumps.program.arena.IsTree ⟨2⟩ ∧ ∃ call,
      MadeIn twoJumps (jumping ⟨2⟩) ⟨0⟩ beforeJumps call ∧ call.Jumps twoJumps .again .nowhere := by
  have tree : twoJumps.program.arena.IsTree ⟨1⟩ := .of_mentions (by decide) (by decide)
  have tree' : twoJumps.program.arena.IsTree ⟨2⟩ := .of_mentions (by decide) (by decide)
  refine ⟨⟨tree, ?_⟩, tree', ?_⟩
  · have returned : ∃ after, lowerFunction twoJumps (jumping ⟨1⟩) ⟨0⟩ beforeJumps = .ok () after :=
      ⟨_, by cbv⟩
    obtain ⟨after, returned⟩ := returned
    obtain ⟨before, answer, middle, made, live, lowered⟩ := made_of_returned rfl returned
    obtain ⟨targets, inside, opens, whole, expr, live'⟩ := opens_of_returned rfl live rfl lowered
    have made' := made.part opens.directly
    have jumps : inside.Jumps twoJumps .leave .nowhere :=
      ⟨whole, live', ⟨.breakLoop, .nowhere, .never⟩, by rw [expr]; rfl, rfl, rfl⟩
    have innermost : twoJumps.program.arena.Innermost ⟨1⟩ inside.expr (some ⟨1⟩) :=
      expr ▸ .looped .body rfl rfl
    exact ⟨inside, made', jumps,
      ((lowerFunction_jumps rfl tree).1 inside _ _ made' jumps).1 _ innermost⟩
  · have failed : ∃ after, lowerFunction twoJumps (jumping ⟨2⟩) ⟨0⟩ beforeJumps =
        .error (.outsideLoop .again .nowhere) after := ⟨_, by cbv⟩
    obtain ⟨after, failed⟩ := failed
    obtain ⟨call, made, jumps, _⟩ := (lowerFunction_jumps rfl tree').2 _ _ _ failed
    exact ⟨call, made, jumps⟩

end TreeLowering.Lowering
