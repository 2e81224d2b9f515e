/-
This file follows the calls through every construct of the language. Each part of a construct has a
seat, and the construct is put together from its parts by the rules for sequences. The body of a
loop is special: it is lowered with the targets that the opening of the loop has made.
-/

import TreeLowering.Proofs.Calls.Follow

namespace TreeLowering.Tree.ExprKind

/-- The body of a loop. -/
def loopBody? : ExprKind → Option ExprId
  | whileLoop _ body | loop body => some body
  | _ => none

/-- The parts that belong to the same loop as the expression itself. -/
def straight : ExprKind → List ExprId
  | whileLoop test _ => [test]
  | loop _ => []
  | kind => kind.children

end TreeLowering.Tree.ExprKind

namespace TreeLowering.Lowering

open TreeLowering.Ir TreeLowering.Tree

/-! ### Opening a loop -/

/-- How a `while` loop begins, up to the start of its body. -/
def openWhile (walk : Walk) (test : ExprId) (span : Span) : LowerM LoopTargets := do
  let func ← currentFunction
  let testBlock ← build (Build.newBlock "while.cond")
  build (Build.jump testBlock)
  build (Build.positionAt func testBlock)
  let value ← walk.expr test
  expectBool value span
  let bodyBlock ← build (Build.newBlock "while.body")
  let exit ← build (Build.newBlock "while.exit")
  build (Build.branch value bodyBlock exit)
  build (Build.positionAt func bodyBlock)
  return ⟨exit, testBlock⟩

/-- How an endless loop begins, up to the start of its body. -/
def openLoop : LowerM LoopTargets := do
  let func ← currentFunction
  let bodyBlock ← build (Build.newBlock "loop.body")
  let exit ← build (Build.newBlock "loop.exit")
  build (Build.jump bodyBlock)
  build (Build.positionAt func bodyBlock)
  return ⟨exit, bodyBlock⟩

/-- How a loop begins. -/
def opening (walk : Walk) : Node → LowerM LoopTargets
  | ⟨.whileLoop test _, span, _⟩ => openWhile walk test span
  | ⟨.loop _, _, _⟩ => openLoop
  | _ => throw .malformedTree

/-! ### Seats -/

/-- Where a construct makes its calls from. Nothing but the body of a loop is lowered inside of a
loop that is not around the construct already. -/
inductive Seat (walk : Walk) (outer : Request) : Request → Prop where
  | part {node : Node} {manner : Manner} {part : ExprId} {inside : Context}
      (stored : walk.program.arena.get? outer.expr = some node)
      (member : part ∈ node.kind.straight)
      (around : inside.env.frames = outer.before.env.frames) : Seat walk outer ⟨manner, part, inside⟩
  /-- The value of a place is read from it, and what is no place is stored to have one. -/
  | self {node : Node} {manner : Manner} {inside : Context}
      (stored : walk.program.arena.get? outer.expr = some node) (other : manner ≠ outer.manner)
      (turns : node.kind.isPlace = true ↔ outer.manner = .value)
      (around : inside.env.frames = outer.before.env.frames) :
      Seat walk outer ⟨manner, outer.expr, inside⟩
  | body {node : Node} {part : ExprId} {targets : LoopTargets} {after : Context}
      (stored : walk.program.arena.get? outer.expr = some node) (whole : outer.manner = .value)
      (looped : node.kind.loopBody? = some part)
      (opened : opening walk node outer.before = .ok targets after)
      (around : after.env.frames = outer.before.env.frames) :
      Seat walk outer ⟨.value, part, { after with env := after.env.pushLoop targets }⟩

/-- The part has a seat wherever the loops around are those of the construct. -/
def Seated (seat : Request → Prop) (frames : List Frame) (part : ExprId) : Prop :=
  ∀ manner context, context.env.frames = frames → seat ⟨manner, part, context⟩

/-- What a construct does between its calls keeps to the rules. -/
theorem Walk.steady (walk : Walk) {awaited : BlockId → Prop} {base : Builder} :
    (Regime.between awaited base).Steady walk.toSource :=
  Regime.between.steady walk.toSource awaited base

section Constructs

variable {walk : Walk} {seat : Request → Prop} {func : FuncId} {awaited : BlockId → Prop}
  {frames : List Frame} {context : Context} (orderly : walk.Orderly)

include orderly

namespace Follows

/-! ### Places -/

theorem expr {part : ExprId} (seated : Seated seat frames part) :
    Follows walk seat func awaited frames (walk.expr part)
      (fun request alarm => (walk.refusing request alarm).expr part) context :=
  Follows.part orderly .value (seated .value context)

theorem place {part : ExprId} (seated : Seated seat frames part) :
    Follows walk seat func awaited frames (walk.place part)
      (fun request alarm => (walk.refusing request alarm).place part) context :=
  Follows.part orderly .place (seated .place context)

theorem basePlace {base : ExprId} (seated : Seated seat frames base) (references : Nat)
    (span : Span) :
    Follows walk seat func awaited frames (basePlace walk base references span)
      (fun request alarm => Lowering.basePlace (walk.refusing request alarm) base references span)
      context := by
  cases references with
  | zero => exact place orderly seated
  | succ more =>
    exact (expr orderly seated).thenLive fun pointer _ => .done
      ((walk.steady.derefPlace pointer span).bind fun place _ _ =>
        walk.steady.followReferences span more place)

theorem fieldPlace {base : ExprId} (seated : Seated seat frames base) (field : Name)
    (span : Span) :
    Follows walk seat func awaited frames (fieldPlace walk base field span)
      (fun request alarm => Lowering.fieldPlace (walk.refusing request alarm) base field span)
      context := by
  refine .step (Keeps.typeOf fun _ => rfl) fun ty _ _ _ =>
    (basePlace orderly seated _ span).thenLive fun place _ => .glue ?_
  split
  · exact walk.steady.fails rfl
  · split
    · exact walk.steady.fails rfl
    · exact walk.steady.lowerType.bind fun _ _ _ => walk.steady.gep.bind fun _ _ _ => .pure trivial

theorem elementPlace {base position : ExprId} (seated : Seated seat frames base)
    (seated' : Seated seat frames position) (span : Span) :
    Follows walk seat func awaited frames (elementPlace walk base position span)
      (fun request alarm =>
        Lowering.elementPlace (walk.refusing request alarm) base position span) context := by
  refine .step (Keeps.typeOf fun _ => rfl) fun ty _ _ _ =>
    (basePlace orderly seated _ span).thenLive fun place _ => ?_
  cases place.ty with
  | array elemTy len =>
    exact (expr orderly seated').thenLive fun index _ => .glue
      (walk.steady.gep.bind fun _ _ _ => .pure trivial)
  | _ => exact .glue (walk.steady.fails rfl)

theorem withTarget {target : ExprId} (seated : Seated seat frames target) (span : Span)
    {next : Place → LowerM Value} {next' : Request → Error → Place → LowerM Value}
    (rest : ∀ found after, Follows walk seat func awaited frames (next found)
      (fun request alarm => next' request alarm found) after) :
    Follows walk seat func awaited frames (withTarget walk target span next)
      (fun request alarm =>
        Lowering.withTarget (walk.refusing request alarm) target span (next' request alarm))
      context := by
  refine (place orderly seated).thenLive fun found after => ?_
  cases found.mutable
  · exact .glue (walk.steady.fails rfl)
  · exact rest found after

/-! ### Lists of parts -/

theorem args (callee : Value) (ret : Ty) (done : List Value) {args : List ExprId}
    (seated : ∀ arg ∈ args, Seated seat frames arg) :
    Follows walk seat func awaited frames (lowerArgs walk callee ret done args)
      (fun request alarm => lowerArgs (walk.refusing request alarm) callee ret done args)
      context := by
  induction args generalizing context done with
  | nil => exact .done (walk.steady.computes nofun)
  | cons arg rest inductionHypothesis =>
    exact (expr orderly (seated arg List.mem_cons_self)).thenLive fun value _ =>
      inductionHypothesis (value :: done) fun arg member =>
        seated arg (List.mem_cons_of_mem _ member)

theorem call (callee : ExprId) {args : List ExprId}
    (seated : ∀ arg ∈ args, Seated seat frames arg) (span : Span) :
    Follows walk seat func awaited frames (lowerCall walk callee args span)
      (fun request alarm => lowerCall (walk.refusing request alarm) callee args span) context := by
  refine .step (Keeps.node fun _ => rfl) fun node _ _ _ => ?_
  obtain ⟨kind, _, _⟩ := node
  cases kind with
  | path segments =>
    refine .step (walk.steady.singleName segments span) fun name _ _ _ => ?_
    refine .step (walk.steady.calledFunction name span) fun func _ _ _ => ?_
    refine .step (walk.steady.ask (Build.fair_functionRef func)) fun calleeValue _ _ _ => ?_
    refine .step (walk.steady.ask (Build.fair_getFunction func)) fun function _ _ _ => ?_
    exact Follows.args orderly calleeValue function.ret [] seated
  | _ => exact .glue (walk.steady.fails rfl)

theorem fields (structTy : Ty) (slot : Value) {inits : List FieldInit} (span : Span)
    (seated : ∀ init ∈ inits, Seated seat frames init.value) (position : Nat)
    (fields : List (Name × TypeId)) :
    Follows walk seat func awaited frames (lowerFields walk structTy slot inits span position fields)
      (fun request alarm =>
        lowerFields (walk.refusing request alarm) structTy slot inits span position fields)
      context := by
  induction fields generalizing context position with
  | nil => exact .done (walk.steady.computes nofun)
  | cons entry rest inductionHypothesis =>
    obtain ⟨field, fieldTy⟩ := entry
    unfold lowerFields
    cases found : inits.find? fun init => init.name == field with
    | none => exact .glue (walk.steady.fails rfl)
    | some init =>
      refine (expr orderly (seated init (List.mem_of_find?_eq_some found))).thenLive
        fun value _ => ?_
      exact .step walk.steady.lowerType fun _ _ _ _ => .step walk.steady.storeElement
        fun _ _ _ _ => inductionHypothesis (position + 1)

theorem structLit {inits : List FieldInit}
    (seated : ∀ init ∈ inits, Seated seat frames init.value) (ty : TypeId) (span : Span) :
    Follows walk seat func awaited frames (lowerStructLit walk inits ty span)
      (fun request alarm => lowerStructLit (walk.refusing request alarm) inits ty span)
      context := by
  refine .step walk.steady.lowerType fun structTy _ _ _ => ?_
  dsimp only [Walk.refusing, Walk.through]
  cases walk.program.types.structDef? ty with
  | none => exact .glue (walk.steady.fails rfl)
  | some definition =>
    dsimp only
    cases inits.find? fun init => (definition.fieldIndex? init.name).isNone with
    | some stray => exact .glue (walk.steady.fails rfl)
    | none =>
      exact .step walk.steady.slot fun slot _ _ _ =>
        fields orderly structTy slot span seated 0 definition.fields

theorem elements (arrayTy elemTy : Ty) (slot : Value) (position : Nat) {elems : List ExprId}
    (seated : ∀ elem ∈ elems, Seated seat frames elem) :
    Follows walk seat func awaited frames (lowerElements walk arrayTy elemTy slot position elems)
      (fun request alarm =>
        lowerElements (walk.refusing request alarm) arrayTy elemTy slot position elems)
      context := by
  induction elems generalizing context position with
  | nil => exact .done (walk.steady.computes nofun)
  | cons elem rest inductionHypothesis =>
    exact (expr orderly (seated elem List.mem_cons_self)).thenLive fun value _ =>
      .step walk.steady.storeElement fun _ _ _ _ =>
        inductionHypothesis (position + 1) fun elem member =>
          seated elem (List.mem_cons_of_mem _ member)

theorem array {elems : List ExprId} (seated : ∀ elem ∈ elems, Seated seat frames elem)
    (ty : TypeId) (span : Span) :
    Follows walk seat func awaited frames (lowerArray walk elems ty span)
      (fun request alarm => lowerArray (walk.refusing request alarm) elems ty span) context := by
  refine .step walk.steady.lowerType fun arrayTy _ _ _ => ?_
  cases arrayTy with
  | array elemTy len =>
    exact .step walk.steady.slot fun slot _ _ _ => elements orderly _ elemTy slot 0 seated
  | _ => exact .glue (walk.steady.fails rfl)

/-! ### Blocks -/

theorem binding (name : Name) (mutable : Bool) (ty : TypeId) {init : Option ExprId}
    (seated : ∀ part ∈ init, Seated seat frames part) :
    Follows walk seat func awaited frames (lowerLet walk name mutable ty init)
      (fun request alarm => lowerLet (walk.refusing request alarm) name mutable ty init)
      context := by
  have slot : ∀ init value context, Follows walk seat func awaited frames
      (bindSlot walk name mutable ty init value)
      (fun request alarm => bindSlot (walk.refusing request alarm) name mutable ty init value)
      context := fun init value _ =>
    .names (walk.steady.bindSlot name mutable ty (fun _ _ _ => rfl) value)
  cases init with
  | none => exact slot none none context
  | some init =>
    refine (expr orderly (seated init rfl)).thenLive fun value after => ?_
    dsimp only [Walk.refusing, Walk.through]
    split
    · exact slot (some init) (some value) after
    · have pinned : Keeps (Regime.between awaited after.builder) Env.leaveScope
          (bindValue name value) after fun _ _ => True :=
        walk.steady.pin.bind fun _ _ _ => .bindName trivial
      exact .names pinned

theorem stmt {stmt : Stmt} (seated : ∀ part ∈ stmt.child?, Seated seat frames part) :
    Follows walk seat func awaited frames (lowerStmt walk stmt)
      (fun request alarm => lowerStmt (walk.refusing request alarm) stmt) context := by
  cases stmt with
  | bind pattern ty init span =>
    cases pattern with
    | ident name mutable => exact binding orderly name mutable ty seated
    | wildcard =>
      cases init with
      | none => exact .glue (.pure trivial)
      | some init => exact (expr orderly (seated init rfl)).discard
    | tuple => exact .glue (walk.steady.fails rfl)
  | expr value => exact (expr orderly (seated value rfl)).discard
  | semi value => exact (expr orderly (seated value rfl)).discard
  | item span => exact .glue (walk.steady.fails rfl)

theorem stmts {stmts : List Stmt} {tail : Option ExprId}
    (seated : ∀ stmt ∈ stmts, ∀ part ∈ stmt.child?, Seated seat frames part)
    (seated' : ∀ part ∈ tail, Seated seat frames part) :
    Follows walk seat func awaited frames (lowerStmts walk stmts tail)
      (fun request alarm => lowerStmts (walk.refusing request alarm) stmts tail) context := by
  induction stmts generalizing context with
  | nil =>
    cases tail with
    | none => exact .glue (.pure trivial)
    | some tail => exact expr orderly (seated' tail rfl)
  | cons stmt rest inductionHypothesis =>
    exact (Follows.stmt orderly (seated stmt List.mem_cons_self)).thenLive fun _ _ =>
      inductionHypothesis fun stmt member => seated stmt (List.mem_cons_of_mem _ member)

/-! ### Branches -/

theorem shortCircuit (isAnd : Bool) {left right : ExprId} (seated : Seated seat frames left)
    (seated' : Seated seat frames right) (span : Span) :
    Follows walk seat func awaited frames (lowerShortCircuit walk isAnd left right span)
      (fun request alarm =>
        lowerShortCircuit (walk.refusing request alarm) isAnd left right span) context := by
  refine (expr orderly seated).thenLive fun value _ => ?_
  refine .step (walk.steady.expectBool value span) fun _ _ _ _ => .currentFunction fun _ _ => ?_
  refine .step walk.steady.slot fun slot _ _ _ => .step walk.steady.store fun _ _ _ _ => ?_
  refine .newBlock fun rightBlock _ _ => .newBlock fun merge _ _ => ?_
  have branched : ∀ base context, Keeps (Regime.between
      (fun id => (awaited id ∨ id = rightBlock) ∨ id = merge) base) id
      (build (shortCircuitBranch isAnd value rightBlock merge)) context fun _ _ => True := by
    intro base context
    cases isAnd
    · exact (walk.steady.branch (fun _ => .inr rfl) fun _ => .inl (.inr rfl)).mono
        fun _ _ _ => trivial
    · exact (walk.steady.branch (fun _ => .inl (.inr rfl)) fun _ => .inr rfl).mono
        fun _ _ _ => trivial
  refine .step (branched _ _) fun _ _ _ _ => .positionAt fun _ _ _ => ?_
  refine (expr orderly seated').bind fun right _ _ => .step Keeps.isLive fun live _ _ _ => ?_
  cases live
  · exact .positionAt fun _ _ _ => .done (walk.steady.computes nofun)
  · exact .step walk.steady.store fun _ _ _ _ => .step (walk.steady.jump fun _ => .inr rfl)
      fun _ _ _ _ => .positionAt fun _ _ _ => .done (walk.steady.computes nofun)

theorem binary (op : BinaryOp) {left right : ExprId} (seated : Seated seat frames left)
    (seated' : Seated seat frames right) (span : Span) :
    Follows walk seat func awaited frames (lowerBinary walk op left right span)
      (fun request alarm => lowerBinary (walk.refusing request alarm) op left right span)
      context := by
  unfold lowerBinary
  split
  · exact shortCircuit orderly (op == .and) seated seated' span
  · exact (expr orderly seated).thenLive fun first _ => (expr orderly seated').thenLive
      fun second _ => .done (walk.steady.emitBinary op first second span)

theorem onlyArm (test : Value) {thenBlock : BlockId} {thenArm : ExprId}
    (seated : Seated seat frames thenArm) (waits : awaited thenBlock) :
    Follows walk seat func awaited frames (lowerWhen walk test func thenBlock thenArm)
      (fun request alarm => lowerWhen (walk.refusing request alarm) test func thenBlock thenArm)
      context := by
  refine .newBlock fun merge _ _ => ?_
  refine .step (walk.steady.branch (fun _ => .inl waits) fun _ => .inr rfl) fun _ _ _ _ => ?_
  refine .positionAt fun _ _ _ => (expr orderly seated).bind fun _ _ _ => ?_
  refine .step Keeps.isLive fun live _ _ _ => ?_
  cases live
  · exact .positionAt fun _ _ _ => .glue (.pure trivial)
  · exact .step (walk.steady.jump fun _ => .inr rfl) fun _ _ _ _ =>
      .positionAt fun _ _ _ => .glue (.pure trivial)

theorem arm {block : BlockId} {part : ExprId} (seated : Seated seat frames part) :
    Follows walk seat func awaited frames (lowerArm walk func block part)
      (fun request alarm => lowerArm (walk.refusing request alarm) func block part) context :=
  .positionAt fun _ _ _ => (expr orderly seated).bind fun _ _ _ => .done Keeps.read

theorem cond {test thenArm : ExprId} {elseArm : Option ExprId}
    (seated : ∀ part ∈ test :: thenArm :: elseArm.toList, Seated seat frames part) (ty : TypeId)
    (span : Span) :
    Follows walk seat func awaited frames (lowerCond walk test thenArm elseArm ty span)
      (fun request alarm =>
        lowerCond (walk.refusing request alarm) test thenArm elseArm ty span) context := by
  have seatedThen := seated thenArm (List.mem_cons_of_mem _ List.mem_cons_self)
  refine (expr orderly (seated test List.mem_cons_self)).thenLive fun value _ => ?_
  refine .step (walk.steady.expectBool value span) fun _ _ _ _ => .currentFunction fun _ _ => ?_
  refine .newBlock fun thenBlock _ _ => ?_
  cases elseArm with
  | none => exact onlyArm orderly value seatedThen (.inr rfl)
  | some elseArm =>
    refine .newBlock fun elseBlock _ _ => ?_
    refine .step (walk.steady.branch (fun _ => .inl (.inr rfl)) fun _ => .inr rfl)
      fun _ _ _ _ => ?_
    refine (arm orderly seatedThen).bind fun first _ _ => ?_
    refine (arm orderly (seated elseArm (by simp))).bind fun second _ _ poised => ?_
    have meets : ∀ base, (Regime.between (fun id => (awaited id ∨ id = thenBlock) ∨ id = elseBlock)
        base).Meets [thenArm] ty := fun _ _ _ _ _ _ => trivial
    exact Follows.done (walk.steady.joinArms (meets _) poised.here fun _ _ =>
      ⟨⟨thenArm, List.mem_cons_self, trivial⟩, trivial⟩) poised

/-! ### Loops and returns -/

theorem loopBody {block : BlockId} {targets : LoopTargets} {body : ExprId}
    (leave : awaited targets.breakTo) (again : awaited targets.continueTo)
    (seated : ∀ after, build (Build.positionAt func block) context = .ok () after →
      after.env.frames = frames →
      seat ⟨.value, body, { after with env := after.env.pushLoop targets }⟩) :
    Follows walk seat func awaited frames (lowerLoopBody walk func block targets body)
      (fun request alarm =>
        lowerLoopBody (walk.refusing request alarm) func block targets body) context := by
  refine .positionAt fun after moved _ poised => ?_
  refine (Follows.inLoop leave again (Follows.part orderly .value fun _ =>
    seated after moved poised.around)).bind (fun _ _ _ => .step Keeps.isLive fun live _ _ _ => ?_)
      poised
  cases live
  · exact .glue (.pure trivial)
  · exact .done (walk.steady.jump fun _ => again)

theorem whileLoop {test body : ExprId} {span : Span} (seated : Seated seat frames test)
    (seated' : ∀ targets after, openWhile walk test span context = .ok targets after →
      after.env.frames = frames →
        seat ⟨.value, body, { after with env := after.env.pushLoop targets }⟩) :
    Follows walk seat func awaited frames (lowerWhile walk test body span)
      (fun request alarm => lowerWhile (walk.refusing request alarm) test body span) context := by
  refine .currentFunction fun _ found => .newBlock fun testBlock _ made => ?_
  refine .step (walk.steady.jump fun _ => .inr rfl) fun _ _ jumped _ => ?_
  refine .positionAt fun _ moved _ => (expr orderly seated).bind fun value later tested => ?_
  refine .read ?_
  cases later.builder.cursor.isSome
  · exact .glue (.pure trivial)
  refine .step (walk.steady.expectBool value span) fun _ _ checked _ => ?_
  refine .newBlock fun bodyBlock _ made' => .newBlock fun exit _ made'' => ?_
  refine .step (walk.steady.branch (fun _ => .inl (.inr rfl)) fun _ => .inr rfl)
    fun _ _ branched _ => ?_
  refine (loopBody orderly (.inr rfl) (.inl (.inl (.inr rfl))) fun after moved' =>
    seated' _ after ?_).bind fun _ _ _ => .positionAt fun _ _ _ => .glue (.pure trivial)
  unfold openWhile
  rw [run_bind found, run_bind made, run_bind jumped, run_bind moved, run_bind tested,
    run_bind checked, run_bind made', run_bind made'', run_bind branched, run_bind moved']
  rfl

theorem endlessLoop {body : ExprId}
    (seated : ∀ targets after, openLoop context = .ok targets after →
      after.env.frames = frames →
        seat ⟨.value, body, { after with env := after.env.pushLoop targets }⟩) (ty : TypeId) :
    Follows walk seat func awaited frames (lowerLoop walk body ty)
      (fun request alarm => lowerLoop (walk.refusing request alarm) body ty) context := by
  refine .currentFunction fun _ found => .newBlock fun bodyBlock _ made => ?_
  refine .newBlock fun exit _ made' => ?_
  refine .step (walk.steady.jump fun _ => .inl (.inr rfl)) fun _ _ jumped _ => ?_
  refine (loopBody orderly (.inr rfl) (.inl (.inr rfl)) fun after moved => seated _ after ?_).bind
    fun _ _ _ => .positionAt fun _ _ _ => .glue (.pure trivial)
  unfold openLoop
  rw [run_bind found, run_bind made, run_bind made', run_bind jumped, run_bind moved]
  rfl

theorem returning {value : Option ExprId} (seated : ∀ part ∈ value, Seated seat frames part)
    (span : Span) :
    Follows walk seat func awaited frames (lowerReturn walk value span)
      (fun request alarm => lowerReturn (walk.refusing request alarm) value span) context := by
  refine .step Keeps.get fun found _ _ _ => ?_
  cases found.env.returnType? with
  | none => exact .glue (walk.steady.fails rfl)
  | some ret =>
    cases value with
    | none => exact .glue ((walk.steady.ret trivial).bind fun _ _ _ => .pure trivial)
    | some value =>
      exact (expr orderly (seated value rfl)).thenLive fun value _ => .glue
        ((walk.steady.ret trivial).bind fun _ _ _ => .pure trivial)

end Follows

/-! ### One level -/

/-- One level of an expression, lowered to its value. A jump must know where to go. -/
theorem follows_node (expr : ExprId)
    (lands : context.Live → ∀ node jump, walk.program.arena.get? expr = some node →
      node.kind.jump? = some jump → (context.env.target? jump).isSome = true) :
    Follows walk (Seat walk ⟨.value, expr, context⟩) func awaited context.env.frames
      (lowerNode walk expr) (fun request alarm => lowerNode (walk.refusing request alarm) expr)
      context := by
  refine .step Keeps.isLive ?_
  rintro _ context - ⟨rfl, rfl⟩
  cases live : context.builder.cursor.isSome
  · exact .glue (.pure trivial)
  refine .step (Keeps.node fun _ => rfl) ?_
  rintro ⟨kind, span, ty⟩ context - ⟨stored, rfl⟩
  have seated : ∀ part ∈ kind.straight,
      Seated (Seat walk ⟨.value, expr, context⟩) context.env.frames part :=
    fun part member manner inside same => .part stored member same
  have opened : ∀ {part}, kind.loopBody? = some part → ∀ targets after,
      opening walk ⟨kind, span, ty⟩ context = .ok targets after →
      after.env.frames = context.env.frames → Seat walk ⟨.value, expr, context⟩
        ⟨.value, part, { after with env := after.env.pushLoop targets }⟩ :=
    fun found targets after opened around => .body stored rfl found opened around
  have read : kind.isPlace = true →
      Follows walk (Seat walk ⟨.value, expr, context⟩) func awaited context.env.frames
        (thenLive .unreachable (walk.place expr) loadPlace)
        (fun request alarm =>
          thenLive .unreachable ((walk.refusing request alarm).place expr) loadPlace) context :=
    fun home => (Follows.part orderly .place fun same =>
      .self stored nofun ⟨fun _ => rfl, fun _ => home⟩ same).thenLive fun place _ =>
        .done (walk.steady.loadPlace place)
  have jumped : ∀ jump, kind.jump? = some jump →
      Follows walk (Seat walk ⟨.value, expr, context⟩) func awaited context.env.frames
        (lowerLoopJump jump span) (fun _ _ => lowerLoopJump jump span) context := by
    intro jump leads poised
    obtain ⟨target, found⟩ := Option.isSome_iff_exists.1 (lands live _ jump stored leads)
    have waits : awaited target := LoopIn.target (poised.around ▸ poised.loop) found
    refine Follows.step Keeps.get ?_ poised
    rintro _ context - ⟨rfl, rfl, -⟩
    rw [found]
    exact .glue ((walk.steady.jump fun _ => waits).bind fun _ _ _ => .pure trivial)
  cases kind with
  | int value => exact .done (walk.steady.lowerInt value ty live)
  | bool value => exact .glue (.pure trivial)
  | char value => exact .glue (.pure trivial)
  | str text => exact .done (walk.steady.stringLiteral _ live)
  | unit => exact .glue (.pure trivial)
  | path segments => exact .done (walk.steady.lowerPath segments span live)
  | binary op left right =>
    exact .binary orderly op (seated left (by simp [ExprKind.straight, ExprKind.children]))
      (seated right (by simp [ExprKind.straight, ExprKind.children])) span
  | unary op operand =>
    exact (Follows.expr orderly (seated operand List.mem_cons_self)).thenLive fun _ _ =>
      .done (walk.steady.computes fun _ _ => trivial)
  | assign target value =>
    refine .withTarget orderly (seated target List.mem_cons_self) span fun found _ => ?_
    have seated' := seated value (by simp [ExprKind.straight, ExprKind.children])
    exact (Follows.expr orderly seated').thenLive
      fun _ _ => .glue (walk.steady.store.bind fun _ _ _ => .pure trivial)
  | compound op target value =>
    refine .withTarget orderly (seated target List.mem_cons_self) span fun found _ => ?_
    refine .step (walk.steady.loadPlace found) fun current _ _ _ => ?_
    have seated' := seated value (by simp [ExprKind.straight, ExprKind.children])
    exact (Follows.expr orderly seated').thenLive
      fun value _ => .glue ((walk.steady.emitBinary op current value span).bind fun _ _ _ =>
        walk.steady.store.bind fun _ _ _ => .pure trivial)
  | borrow mutable operand =>
    have seated' := seated operand List.mem_cons_self
    refine (Follows.place orderly seated').thenLive fun found _ => .glue ?_
    split
    · exact (walk.steady.fails rfl).bind fun _ _ (absurd : False) => absurd.elim
    · dsimp only
      split
      · exact .pure trivial
      · exact Keeps.mono (walk.steady.computes fun _ _ => trivial) fun _ _ _ => trivial
  | cast operand =>
    refine (Follows.expr orderly (seated operand List.mem_cons_self)).thenLive fun value _ =>
      .step walk.steady.lowerType fun wanted _ _ _ => .glue ?_
    split
    · exact .pure trivial
    · split
      · exact Keeps.mono (walk.steady.computes fun _ _ => trivial) fun _ _ _ => trivial
      · exact walk.steady.fails rfl
  | deref operand => exact read rfl
  | field base field => exact read rfl
  | index base position => exact read rfl
  | block scope stmts tail =>
    refine .inScope (.stmts orderly (fun stmt member part child => seated part ?_)
      fun part member => seated part ?_)
    · exact List.mem_append_left _ (List.mem_filterMap.2 ⟨stmt, member, child⟩)
    · exact List.mem_append_right _ (Option.mem_toList.2 member)
  | cond test thenArm elseArm => exact .cond orderly seated ty span
  | whileLoop test body =>
    exact .whileLoop orderly (seated test List.mem_cons_self) (opened rfl)
  | loop body => exact .endlessLoop orderly (opened rfl) ty
  | breakLoop => exact jumped .leave rfl
  | continueLoop => exact jumped .again rfl
  | returnWith value =>
    exact .returning orderly (fun part member => seated part (Option.mem_toList.2 member)) span
  | call callee args =>
    exact .call orderly callee (fun arg member => seated arg (List.mem_cons_of_mem _ member)) span
  | structLit inits =>
    exact .structLit orderly (fun init member => seated init.value (List.mem_map_of_mem member))
      ty span
  | array elems => exact .array orderly seated ty span
  | methodCall receiver method args => exact .glue (walk.steady.fails rfl)
  | tuple elems => exact .glue (walk.steady.fails rfl)
  | select scrutinee => exact .glue (walk.steady.fails rfl)


/-- One level of an expression, lowered to the address it denotes. -/
theorem follows_nodePlace (expr : ExprId) :
    Follows walk (Seat walk ⟨.place, expr, context⟩) func awaited context.env.frames
      (lowerNodePlace walk expr)
      (fun request alarm => lowerNodePlace (walk.refusing request alarm) expr) context := by
  refine .step Keeps.isLive ?_
  rintro _ context - ⟨rfl, rfl⟩
  cases context.builder.cursor.isSome
  · exact .glue (.pure trivial)
  refine .step (Keeps.node fun _ => rfl) ?_
  rintro ⟨kind, span, ty⟩ context - ⟨stored, rfl⟩
  have seated : ∀ part ∈ kind.straight,
      Seated (Seat walk ⟨.place, expr, context⟩) context.env.frames part :=
    fun part member manner inside same => .part stored member same
  have homeless : kind.isPlace = false →
      Follows walk (Seat walk ⟨.place, expr, context⟩) func awaited context.env.frames
        (thenLive .unreachable (walk.expr expr) fun value => spill value none)
        (fun request alarm => thenLive .unreachable ((walk.refusing request alarm).expr expr)
          fun value => spill value none) context :=
    fun plain => (Follows.part orderly .value fun same =>
      .self stored nofun ⟨fun home => absurd (home.symm.trans plain) nofun, nofun⟩ same).thenLive
        fun value _ => .done (walk.steady.spill value none)
  have nowhere : Follows walk (Seat walk ⟨.place, expr, context⟩) func awaited context.env.frames
      (throw (.notAddressable kind.describe span) : LowerM Place)
      (fun _ _ => throw (.notAddressable kind.describe span)) context :=
    .glue (walk.steady.fails rfl)
  cases kind with
  | path segments => exact .done (walk.steady.pathPlace segments span)
  | deref operand =>
    exact (Follows.expr orderly (seated operand List.mem_cons_self)).thenLive fun pointer _ =>
      .done (walk.steady.derefPlace pointer span)
  | field base field => exact .fieldPlace orderly (seated base List.mem_cons_self) field span
  | index base position =>
    exact .elementPlace orderly (seated base List.mem_cons_self)
      (seated position (by simp [ExprKind.straight, ExprKind.children])) span
  | assign target value => exact nowhere
  | compound op target value => exact nowhere
  | whileLoop test body => exact nowhere
  | loop body => exact nowhere
  | breakLoop => exact nowhere
  | continueLoop => exact nowhere
  | returnWith value => exact nowhere
  | _ => exact homeless rfl

end Constructs

end TreeLowering.Lowering
