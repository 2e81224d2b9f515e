/-
This file proves that every construct keeps to a steady regime when its parts do. The value of a
construct that control does not leave is the placeholder; where values are joined or returned, the
regime must allow it for the construct at hand.
-/

import TreeLowering.Proofs.Regime.Steady

namespace TreeLowering.Lowering

open TreeLowering.Ir TreeLowering.Tree

/-! ### Parts -/

/-- When control does not get behind a construct, the placeholder stands for its value. -/
def Finished (value : Value) (after : Context) : Prop :=
  after.builder.cursor = none → value = .unreachable

theorem Context.Live.finished {after : Context} (live : after.Live) (value : Value) :
    Finished value after := fun dead => by
  rw [Context.Live, dead] at live
  cases live

theorem finished_unreachable (after : Context) : Finished .unreachable after := fun _ => rfl

theorem Context.Live.of_same {context after : Context} (live : context.Live)
    (same : after.builder.cursor = context.builder.cursor) : after.Live := by
  rw [Context.Live, same]
  exact live

/-- What a part leaves behind. -/
def Regime.Gives (regime : Regime) (part : ExprId) (value : Value) (after : Context) : Prop :=
  (after.Live → regime.yields part value) ∧ Finished value after

/-- The lowering of a part keeps to the rules. -/
structure Regime.Lowers (regime : Regime) (walk : Walk) (part : ExprId) : Prop where
  found : walk.program.arena.get? part = none → regime.excused .malformedTree
  expr : ∀ context, Keeps regime id (walk.expr part) context (regime.Gives part)
  place : ∀ context, Keeps regime id (walk.place part) context fun _ _ => True

/-- The arms of a conditional may be joined. -/
def Regime.Meets (regime : Regime) (arms : List ExprId) (ty : TypeId) : Prop :=
  ∀ (mapped : Ty) (incoming : List (Value × BlockId)), regime.mapped ty mapped →
    mapped.isVoid = false →
    (∀ pair ∈ incoming, ∃ arm ∈ arms, regime.yields arm pair.1) →
    regime.joins mapped (incoming.map fun pair => (retype mapped pair.1, pair.2))

/-- A jump outside of all loops may end the run. -/
def Regime.Strays (regime : Regime) (jump : LoopJump) : Prop :=
  ∀ (env : Env) (span : Span), regime.frames env.frames → env.target? jump = none →
    regime.excused (.outsideLoop jump span)

/-- What a `return` yields may be returned. -/
def Regime.Exits (regime : Regime) : Option ExprId → Prop
  | none => ∀ ret, regime.answers ret → regime.returns none
  | some part => ∀ ret value, regime.answers ret → regime.yields part value →
    regime.returns (if ret.isVoid then none else some value)

section Parts

variable {regime : Regime} {walk : Walk} {context : Context} {part : ExprId}

theorem Regime.Lowers.withValue (lowers : regime.Lowers walk part) {next : Value → LowerM Value}
    (rest : ∀ value after, regime.yields part value → after.Live →
      Keeps regime id (next value) after Finished) :
    Keeps regime id (walk.withValue part next) context Finished :=
  (lowers.expr context).thenLive (fun value after gives live => rest value after (gives.1 live) live)
    fun _ after _ _ => finished_unreachable after

theorem Keeps.node {view : Env → Env} {expr : ExprId}
    (found : walk.program.arena.get? expr = none → regime.excused .malformedTree) :
    Keeps regime view (walk.node expr) context fun node after =>
      walk.program.arena.get? expr = some node ∧ after = context := by
  unfold Walk.node
  split
  · next stored => exact .pure ⟨stored, rfl⟩
  · next missing => exact .throw (found missing)

theorem Keeps.typeOf {view : Env → Env}
    (found : walk.program.arena.get? part = none → regime.excused .malformedTree) :
    Keeps regime view (walk.typeOf part) context fun _ after => after = context :=
  (Keeps.node found).bind fun _ _ ⟨_, same⟩ => .pure same

end Parts

namespace Regime.Steady

section Pieces

variable {regime : Regime} {source : Source} {view : Env → Env} {context : Context}
  (steady : regime.Steady source)

include steady

/-! ### Places -/

theorem fails {α : Type} {cause : Error} {post : α → Context → Prop}
    (plain : cause.isPlain = true) : Keeps regime view (throw cause) context post :=
  .throw (steady.pardons cause plain)

theorem derefPlace (pointer : Value) (span : Span) :
    Keeps regime view (derefPlace pointer span) context fun _ after => after = context := by
  unfold Lowering.derefPlace
  split
  · exact .pure rfl
  · exact steady.fails rfl

theorem loadPlace (place : Place) :
    Keeps regime view (loadPlace place) context fun _ after => after.Live :=
  steady.emit nofun

theorem gep {baseTy elemTy : Ty} {base : Value} {indices : List Value} :
    Keeps regime view (build (Build.gep baseTy base indices elemTy)) context
      fun _ after => after.Live :=
  steady.emit nofun

/-- The last instruction of a construct yields its value. -/
theorem computes {op : Operation} {ty : Ty}
    (joined : ∀ incoming, op = .phi incoming → regime.joins ty incoming) :
    Keeps regime view (build (Build.emitTemp op ty)) context Finished :=
  (steady.emit joined).mono fun value _ live => live.finished value

theorem spill (value : Value) (variableName : Option String) :
    Keeps regime view (spill value variableName) context fun _ _ => True :=
  steady.slot.bind fun _ _ _ => steady.store.bind fun _ _ _ => .pure trivial

theorem followReferences (span : Span) (count : Nat) (place : Place) :
    Keeps regime view (followReferences span count place) context fun _ _ => True := by
  induction count generalizing place context with
  | zero => exact .pure trivial
  | succ count inductionHypothesis =>
    exact (steady.loadPlace place).bind fun pointer _ _ =>
      (steady.derefPlace pointer span).bind fun place _ _ => inductionHypothesis place

/-! ### Declarations -/

theorem globalPlace (name : Name) (span : Span) :
    Keeps regime view (globalPlace source name span) context fun _ _ => True := by
  refine Keeps.read.bind fun symbol _ _ => ?_
  split
  · refine steady.lowerType.bind fun ty after _ => ?_
    refine Keeps.get.bind fun later _ _ => ?_
    split
    · exact .pure trivial
    · exact steady.fails rfl
  · exact steady.fails rfl

theorem functionForSymbol (link : Name) (ty : TypeId) (span : Span) :
    Keeps regime view (functionForSymbol source link ty span) context fun _ after =>
      after.builder.cursor = context.builder.cursor := by
  refine Keeps.get.bind ?_
  rintro _ context ⟨rfl, rfl, -⟩
  split
  · exact .pure rfl
  · split
    · refine (Keeps.mapM fun ty _ _ => steady.lowerType).bind fun types first ⟨_, same⟩ => ?_
      refine steady.lowerType.bind fun ret second ⟨_, same'⟩ => ?_
      exact steady.declareFunction.mono fun _ _ same'' => same''.trans (same'.trans same)
    · exact steady.fails rfl

/-! ### Values -/

theorem lowerInt (value : UInt64) (ty : TypeId) (live : context.Live) :
    Keeps regime view (lowerInt source value ty) context Finished :=
  steady.lowerType.bind fun _ _ ⟨_, same⟩ => .pure ((live.of_same same).finished _)

theorem internString (text : String) :
    Keeps regime view (internString text) context fun _ after =>
      after.builder.cursor = context.builder.cursor := by
  refine Keeps.get.bind ?_
  rintro _ context ⟨rfl, rfl, -⟩
  dsimp only
  split
  · exact .pure rfl
  · refine steady.declareGlobal.bind fun address first same => ?_
    have added : Keeps regime view (modify fun context : Context =>
        { context with strings := (text, address) :: context.strings }) first
        fun _ later => later.builder.cursor = context.builder.cursor :=
      fun rules => ⟨⟨rfl, rfl, rfl⟩, ⟨rules.holds, rules.frames⟩, same⟩
    exact added.bind fun _ _ same => .pure same

theorem stringLiteral (text : String) (live : context.Live) :
    Keeps regime view (stringLiteral text) context Finished := by
  refine (steady.internString text).bind fun address after same => ?_
  split
  · exact .pure ((live.of_same same).finished _)
  · exact steady.fails rfl

theorem storeElement {wholeTy elemTy : Ty} {slot value : Value} {indices : List Value} :
    Keeps regime view (storeElement wholeTy slot indices elemTy value) context
      fun _ _ => True :=
  steady.gep.bind fun _ _ _ => steady.store.mono fun _ _ _ => trivial

theorem emitBinary (op : BinaryOp) (left right : Value) (span : Span) :
    Keeps regime view (emitBinary op left right span) context fun _ after => after.Live := by
  unfold Lowering.emitBinary
  dsimp only
  split
  · exact steady.emit nofun
  · split
    · exact steady.emit nofun
    · exact steady.fails rfl

theorem expectBool (value : Value) (span : Span) :
    Keeps regime view (expectBool value span) context fun _ _ => True := by
  unfold Lowering.expectBool
  split
  · exact .pure trivial
  · exact steady.fails rfl

theorem lowerLoopJump {jump : LoopJump} (strays : regime.Strays jump) (span : Span) :
    Keeps regime view (lowerLoopJump jump span) context Finished := by
  refine Keeps.get.bind ?_
  rintro _ context ⟨rfl, rfl, rules⟩
  split
  · next target found =>
    exact (steady.jump (steady.targets rules.frames found)).bind fun _ after _ =>
      .pure (finished_unreachable after)
  · next missing => exact .throw (strays _ span rules.frames missing)

end Pieces

section Constructs

variable {regime : Regime} {walk : Walk} {view : Env → Env} {context : Context}
  (steady : regime.Steady walk.toSource)

include steady

/-! ### Places -/

theorem basePlace {base : ExprId} (lowers : regime.Lowers walk base) (references : Nat)
    (span : Span) :
    Keeps regime id (basePlace walk base references span) context fun _ _ => True := by
  unfold Lowering.basePlace
  split
  · exact lowers.place context
  · refine (lowers.expr context).thenLive (fun pointer _ _ _ => ?_) fun _ _ _ _ => trivial
    exact (steady.derefPlace pointer span).bind fun place _ _ =>
      steady.followReferences span _ place

theorem fieldPlace {base : ExprId} (lowers : regime.Lowers walk base) (field : Name)
    (span : Span) :
    Keeps regime id (fieldPlace walk base field span) context fun _ _ => True := by
  refine (Keeps.typeOf lowers.found).bind fun ty _ _ => ?_
  refine (steady.basePlace lowers _ span).thenLive (fun place _ _ _ => ?_) fun _ _ _ _ => trivial
  split
  · exact steady.fails rfl
  · split
    · exact steady.fails rfl
    · exact steady.lowerType.bind fun _ _ _ => steady.gep.bind fun _ _ _ => .pure trivial

theorem elementPlace {base position : ExprId} (lowers : regime.Lowers walk base)
    (lowers' : regime.Lowers walk position) (span : Span) :
    Keeps regime id (elementPlace walk base position span) context fun _ _ => True := by
  refine (Keeps.typeOf lowers.found).bind fun ty _ _ => ?_
  refine (steady.basePlace lowers _ span).thenLive (fun place _ _ _ => ?_) fun _ _ _ _ => trivial
  split
  · refine (lowers'.expr _).thenLive (fun index _ _ _ => ?_) fun _ _ _ _ => trivial
    exact steady.gep.bind fun _ _ _ => .pure trivial
  · exact steady.fails rfl

/-! ### Names -/

theorem singleName (segments : List Name) (span : Span) :
    Keeps regime view (walk.singleName segments span) context fun _ after => after = context := by
  unfold Walk.singleName
  split
  · exact .pure rfl
  · exact steady.fails rfl
  · exact steady.fails rfl

theorem pathPlace (segments : List Name) (span : Span) :
    Keeps regime view (pathPlace walk segments span) context fun _ _ => True := by
  refine (steady.singleName segments span).bind fun name _ _ => ?_
  refine Keeps.read.bind fun binding _ _ => ?_
  split
  · exact .pure trivial
  · exact steady.spill _ _
  · exact steady.spill _ _
  · exact steady.globalPlace name span

theorem lowerPath (segments : List Name) (span : Span) (live : context.Live) :
    Keeps regime view (lowerPath walk segments span) context Finished := by
  refine (steady.singleName segments span).bind ?_
  rintro name _ rfl
  refine Keeps.read.bind ?_
  rintro binding _ ⟨rfl, rfl⟩
  split
  · exact .pure (live.finished _)
  · exact .pure (live.finished _)
  · exact steady.computes nofun
  · refine Keeps.read.bind ?_
    rintro symbol _ ⟨rfl, rfl⟩
    split
    · refine (steady.functionForSymbol _ _ span).bind fun func first same => ?_
      refine (steady.ask (Build.fair_functionRef func)).mono fun value after same' => ?_
      exact (live.of_same (same'.trans same)).finished value
    · refine (steady.globalPlace name span).bind fun place _ _ => ?_
      exact (steady.loadPlace place).mono fun value _ live => live.finished value

/-! ### Literals -/

theorem lowerFields (structTy : Ty) (slot : Value) {inits : List FieldInit} (span : Span)
    (lowers : ∀ init ∈ inits, regime.Lowers walk init.value) (position : Nat)
    (fields : List (Name × TypeId)) :
    Keeps regime id (lowerFields walk structTy slot inits span position fields) context
      Finished := by
  induction fields generalizing context position with
  | nil => exact steady.computes nofun
  | cons field rest inductionHypothesis =>
    unfold Lowering.lowerFields
    split
    · exact steady.fails rfl
    · next init found =>
      refine (lowers init (List.mem_of_find?_eq_some found)).withValue fun value _ _ _ => ?_
      refine steady.lowerType.bind fun fieldTy _ _ => ?_
      exact steady.storeElement.bind fun _ _ _ => inductionHypothesis (position + 1)

theorem lowerStructLit {inits : List FieldInit}
    (lowers : ∀ init ∈ inits, regime.Lowers walk init.value) (ty : TypeId) (span : Span) :
    Keeps regime id (lowerStructLit walk inits ty span) context Finished := by
  refine steady.lowerType.bind fun structTy _ _ => ?_
  split
  · exact steady.fails rfl
  · split
    · exact steady.fails rfl
    · exact steady.slot.bind fun slot _ _ => steady.lowerFields structTy slot span lowers 0 _

theorem lowerElements (arrayTy elemTy : Ty) (slot : Value) (position : Nat) {elems : List ExprId}
    (lowers : ∀ elem ∈ elems, regime.Lowers walk elem) :
    Keeps regime id (lowerElements walk arrayTy elemTy slot position elems) context Finished := by
  induction elems generalizing context position with
  | nil => exact steady.computes nofun
  | cons elem rest inductionHypothesis =>
    refine (lowers elem List.mem_cons_self).withValue fun value _ _ _ => ?_
    exact steady.storeElement.bind fun _ _ _ =>
      inductionHypothesis (position + 1) fun elem member =>
        lowers elem (List.mem_cons_of_mem _ member)

theorem lowerArray {elems : List ExprId} (lowers : ∀ elem ∈ elems, regime.Lowers walk elem)
    (ty : TypeId) (span : Span) :
    Keeps regime id (lowerArray walk elems ty span) context Finished := by
  refine steady.lowerType.bind fun arrayTy _ _ => ?_
  split
  · exact steady.slot.bind fun slot _ _ => steady.lowerElements _ _ slot 0 lowers
  · exact steady.fails rfl

/-! ### Operators, conversions and calls -/

theorem lowerUnary (op : UnaryOp) {operand : ExprId} (lowers : regime.Lowers walk operand) :
    Keeps regime id (lowerUnary walk op operand) context Finished :=
  lowers.withValue fun _ _ _ _ =>
    steady.computes nofun

theorem lowerCast {operand : ExprId} (lowers : regime.Lowers walk operand) (ty : TypeId)
    (span : Span) : Keeps regime id (lowerCast walk operand ty span) context Finished := by
  refine lowers.withValue fun value _ _ live => ?_
  refine steady.lowerType.bind fun wanted _ ⟨_, same⟩ => ?_
  split
  · exact .pure ((live.of_same same).finished value)
  · split
    · exact steady.computes nofun
    · exact steady.fails rfl

theorem calledFunction (name : Name) (span : Span) :
    Keeps regime view (calledFunction walk name span) context fun _ _ => True := by
  refine Keeps.read.bind fun binding _ _ => ?_
  split
  · exact (steady.fails rfl).bind fun _ _ (absurd : False) => absurd.elim
  · refine Keeps.read.bind fun symbol _ _ => ?_
    split
    · exact (steady.functionForSymbol _ _ span).mono fun _ _ _ => trivial
    · exact steady.fails rfl
    · exact steady.fails rfl

theorem lowerArgs (callee : Value) (ret : Ty) (done : List Value) {args : List ExprId}
    (lowers : ∀ arg ∈ args, regime.Lowers walk arg) :
    Keeps regime id (lowerArgs walk callee ret done args) context Finished := by
  induction args generalizing context done with
  | nil =>
    exact steady.computes nofun
  | cons arg rest inductionHypothesis =>
    refine (lowers arg List.mem_cons_self).withValue fun value _ _ _ => ?_
    exact inductionHypothesis (value :: done) fun arg member =>
      lowers arg (List.mem_cons_of_mem _ member)

theorem lowerCall {callee : ExprId} {args : List ExprId} (lowers : regime.Lowers walk callee)
    (lowers' : ∀ arg ∈ args, regime.Lowers walk arg) (span : Span) :
    Keeps regime id (lowerCall walk callee args span) context Finished := by
  refine (Keeps.node lowers.found).bind fun node _ _ => ?_
  split
  · refine (steady.singleName _ span).bind fun name _ _ => ?_
    refine (steady.calledFunction name span).bind fun func _ _ => ?_
    refine (steady.ask (Build.fair_functionRef func)).bind fun calleeValue _ _ => ?_
    refine (steady.ask (Build.fair_getFunction func)).bind fun function _ _ => ?_
    exact steady.lowerArgs calleeValue _ [] lowers'
  · exact steady.fails rfl

/-! ### Assignments and borrows -/

theorem withTarget {target : ExprId} (lowers : regime.Lowers walk target) (span : Span)
    {next : Place → LowerM Value}
    (rest : ∀ place after, Keeps regime id (next place) after Finished) :
    Keeps regime id (withTarget walk target span next) context Finished := by
  refine (lowers.place context).thenLive (fun place after _ _ => ?_)
    fun _ after _ _ => finished_unreachable after
  split
  · exact rest place after
  · exact steady.fails rfl

theorem lowerAssign {target value : ExprId} (lowers : regime.Lowers walk target)
    (lowers' : regime.Lowers walk value) (span : Span) :
    Keeps regime id (lowerAssign walk target value span) context Finished :=
  steady.withTarget lowers span fun _ _ => lowers'.withValue fun _ _ _ _ =>
    steady.store.bind fun _ _ live => .pure (live.finished _)

theorem lowerCompound (op : BinaryOp) {target value : ExprId} (lowers : regime.Lowers walk target)
    (lowers' : regime.Lowers walk value) (span : Span) :
    Keeps regime id (lowerCompound walk op target value span) context Finished :=
  steady.withTarget lowers span fun place _ => (steady.loadPlace place).bind fun current _ _ =>
    lowers'.withValue fun value _ _ _ => (steady.emitBinary op current value span).bind
      fun _ _ _ => steady.store.bind fun _ _ live => .pure (live.finished _)

theorem lowerBorrow (mutable : Bool) {operand : ExprId} (lowers : regime.Lowers walk operand)
    (span : Span) : Keeps regime id (lowerBorrow walk mutable operand span) context Finished := by
  refine (lowers.place context).thenLive (fun place after _ live => ?_)
    fun _ after _ _ => finished_unreachable after
  split
  · exact (steady.fails rfl).bind fun _ _ (absurd : False) => absurd.elim
  · dsimp only
    split
    · exact .pure (live.finished _)
    · exact steady.computes nofun

/-! ### Blocks -/

theorem bindSlot (name : Name) (mutable : Bool) (ty : TypeId) {init : Option ExprId}
    (found : ∀ part ∈ init, walk.program.arena.get? part = none → regime.excused .malformedTree)
    (value : Option Value) :
    Keeps regime Env.leaveScope (bindSlot walk name mutable ty init value) context
      fun _ _ => True := by
  have typed : Keeps regime Env.leaveScope (slotType walk ty init) context fun _ _ => True := by
    unfold slotType
    split
    · split
      · exact (Keeps.typeOf (found _ rfl)).mono fun _ _ _ => trivial
      · exact .pure trivial
    · exact .pure trivial
  refine typed.bind fun ty _ _ => steady.lowerType.bind fun mapped _ _ =>
    steady.slot.bind fun address _ _ => ?_
  cases value with
  | none => exact .bindName trivial
  | some value => exact steady.store.bind fun _ _ _ => .bindName trivial

theorem lowerLet (name : Name) (mutable : Bool) (ty : TypeId) {init : Option ExprId}
    (lowers : ∀ part ∈ init, regime.Lowers walk part) :
    Keeps regime Env.leaveScope (lowerLet walk name mutable ty init) context
      fun _ _ => True := by
  unfold Lowering.lowerLet
  split
  · exact steady.bindSlot name mutable ty (fun _ member => by cases member) none
  · next part =>
    refine ((lowers part rfl).expr context).seen.thenLive (fun value _ _ _ => ?_)
      fun _ _ _ _ => trivial
    split
    · exact steady.bindSlot name mutable ty (fun part member => (lowers part member).found)
        (some value)
    · exact steady.pin.bind fun _ _ _ => .bindName trivial

theorem lowerStmt {stmt : Stmt} (lowers : ∀ part ∈ stmt.child?, regime.Lowers walk part) :
    Keeps regime Env.leaveScope (lowerStmt walk stmt) context fun _ _ => True := by
  have plain : ∀ part ∈ stmt.child?, Keeps regime Env.leaveScope (discard (walk.expr part)) context
      fun _ _ => True := fun part member =>
    .discard (((lowers part member).expr context).seen.mono fun _ _ _ => trivial)
  unfold Lowering.lowerStmt
  split
  · exact steady.lowerLet _ _ _ lowers
  · exact plain _ rfl
  · exact .pure trivial
  · exact steady.fails rfl
  · exact plain _ rfl
  · exact plain _ rfl
  · exact steady.fails rfl

theorem lowerStmts {stmts : List Stmt} {tail : Option ExprId}
    (lowers : ∀ stmt ∈ stmts, ∀ part ∈ stmt.child?, regime.Lowers walk part)
    (lowers' : ∀ part ∈ tail, regime.Lowers walk part) (live : context.Live) :
    Keeps regime Env.leaveScope (lowerStmts walk stmts tail) context Finished := by
  induction stmts generalizing context with
  | nil =>
    cases tail with
    | none => exact .pure (live.finished _)
    | some tail => exact ((lowers' tail rfl).expr context).seen.mono fun _ _ gives => gives.2
  | cons stmt rest inductionHypothesis =>
    refine (steady.lowerStmt (lowers stmt List.mem_cons_self)).thenLive (fun _ _ _ live => ?_)
      fun _ after _ _ => finished_unreachable after
    exact inductionHypothesis (fun stmt member => lowers stmt (List.mem_cons_of_mem _ member)) live

theorem lowerBlock (scope : ScopeId) {stmts : List Stmt} {tail : Option ExprId}
    (lowers : ∀ stmt ∈ stmts, ∀ part ∈ stmt.child?, regime.Lowers walk part)
    (lowers' : ∀ part ∈ tail, regime.Lowers walk part) (live : context.Live) :
    Keeps regime id (lowerBlock walk scope stmts tail) context Finished :=
  .inScope (steady.lowerStmts lowers lowers' live)

/-! ### Branches -/

theorem lowerShortCircuit (isAnd : Bool) {left right : ExprId} (lowers : regime.Lowers walk left)
    (lowers' : regime.Lowers walk right) (span : Span) :
    Keeps regime id (lowerShortCircuit walk isAnd left right span) context Finished := by
  refine lowers.withValue fun value _ _ _ => (steady.expectBool value span).bind fun _ _ _ => ?_
  refine steady.currentFunction.bind fun func _ ⟨mine, _⟩ => ?_
  refine steady.slot.bind fun slot _ _ => steady.store.bind fun _ _ _ => ?_
  refine steady.newBlock.bind fun rightBlock _ ⟨own, free⟩ => ?_
  refine steady.newBlock.bind fun merge _ ⟨own', free'⟩ => ?_
  have branched : ∀ context, Keeps regime id
      (build (shortCircuitBranch isAnd value rightBlock merge)) context fun _ _ => True :=
    fun context => by
      unfold shortCircuitBranch
      split
      · exact (steady.branch free free').mono fun _ _ _ => trivial
      · exact (steady.branch free' free).mono fun _ _ _ => trivial
  refine (branched _).bind fun _ _ _ => (steady.positionAt mine own).bind fun _ _ _ => ?_
  refine (lowers'.expr _).bind fun right _ _ => Keeps.isLive.bind fun live _ _ => ?_
  have joined : ∀ context, Keeps regime id (do
      build (Build.positionAt func merge)
      build (Build.load slot .bool)) context Finished := fun context =>
    (steady.positionAt mine own').bind fun _ _ _ => steady.computes nofun
  split
  · exact steady.store.bind fun _ _ _ => (steady.jump free').bind fun _ _ _ => joined _
  · exact joined _

theorem lowerBinary (op : BinaryOp) {left right : ExprId} (lowers : regime.Lowers walk left)
    (lowers' : regime.Lowers walk right) (span : Span) :
    Keeps regime id (lowerBinary walk op left right span) context Finished := by
  unfold Lowering.lowerBinary
  split
  · exact steady.lowerShortCircuit _ lowers lowers' span
  · exact lowers.withValue fun first _ _ _ => lowers'.withValue fun second _ _ _ =>
      (steady.emitBinary op first second span).mono fun value _ live => live.finished value

theorem lowerWhen (test : Value) {func : FuncId} {thenBlock : BlockId} {thenArm : ExprId}
    (lowers : regime.Lowers walk thenArm) (mine : regime.mine func) (own : regime.own thenBlock)
    (free : regime.free thenBlock) :
    Keeps regime id (lowerWhen walk test func thenBlock thenArm) context Finished := by
  refine steady.newBlock.bind fun merge _ ⟨own', free'⟩ => ?_
  refine (steady.branch free free').bind fun _ _ _ => ?_
  refine (steady.positionAt mine own).bind fun _ _ _ => (lowers.expr _).bind fun _ _ _ => ?_
  have joined : ∀ context, Keeps regime id (do
      build (Build.positionAt func merge)
      return Value.unit) context Finished := fun context =>
    (steady.positionAt mine own').bind fun _ _ live => .pure (live.finished _)
  refine Keeps.isLive.bind fun live _ _ => ?_
  split
  · exact (steady.jump free').bind fun _ _ _ => joined _
  · exact joined _

/-- What an arm yields: its value, and the block it ends in. -/
theorem lowerArm {func : FuncId} {block : BlockId} {arm : ExprId}
    (lowers : regime.Lowers walk arm) (mine : regime.mine func) (own : regime.own block) :
    Keeps regime id (lowerArm walk func block arm) context fun ending _ =>
      ∀ pair ∈ ending, regime.yields arm pair.1 ∧ regime.own pair.2 := by
  refine (steady.positionAt mine own).bind fun _ _ _ => ?_
  refine (lowers.expr _).bind fun value after gives => ?_
  intro rules
  refine ⟨.refl id after, rules, fun pair member => ?_⟩
  obtain ⟨cursor, found, rfl⟩ := Option.map_eq_some_iff.1 member
  exact ⟨gives.1 (by rw [Context.Live, found]; rfl), steady.here rules.holds found⟩

theorem joinArms {func : FuncId} {ty : TypeId} {arms : List ExprId}
    {incoming : List (Value × BlockId)} (meets : regime.Meets arms ty) (mine : regime.mine func)
    (ends : ∀ pair ∈ incoming, (∃ arm ∈ arms, regime.yields arm pair.1) ∧ regime.own pair.2) :
    Keeps regime id (joinArms walk func ty incoming) context Finished := by
  unfold Lowering.joinArms
  split
  · exact .pure (finished_unreachable _)
  · refine steady.newBlock.bind fun merge _ ⟨own, free⟩ => ?_
    refine (Keeps.forM fun pair member _ => ?_).bind fun _ _ _ => ?_
    · exact (steady.positionAt mine (ends pair member).2).bind fun _ _ _ =>
        (steady.jump free).mono fun _ _ _ => trivial
    refine (steady.positionAt mine own).bind fun _ _ live => ?_
    refine steady.lowerType.bind fun mapped _ ⟨typed, same⟩ => ?_
    split
    · exact .pure ((live.of_same same).finished _)
    · next filled =>
      unfold mergeValue
      split
      · exact .pure ((live.of_same same).finished _)
      · refine steady.computes fun joined matched => ?_
        cases matched
        exact meets mapped incoming typed (Bool.eq_false_iff.2 filled) fun pair member =>
          (ends pair member).1

theorem lowerCond {test thenArm : ExprId} {elseArm : Option ExprId} {ty : TypeId} (span : Span)
    (lowers : ∀ part ∈ test :: thenArm :: elseArm.toList, regime.Lowers walk part)
    (meets : ∀ arm ∈ elseArm, regime.Meets [thenArm, arm] ty) :
    Keeps regime id (lowerCond walk test thenArm elseArm ty span) context Finished := by
  have lowersThen := lowers thenArm (List.mem_cons_of_mem _ List.mem_cons_self)
  refine (lowers test List.mem_cons_self).withValue fun value _ _ _ => ?_
  refine (steady.expectBool value span).bind fun _ _ _ => ?_
  refine steady.currentFunction.bind fun func _ ⟨mine, _⟩ => ?_
  refine steady.newBlock.bind fun thenBlock _ ⟨own, free⟩ => ?_
  cases elseArm with
  | none => exact steady.lowerWhen value lowersThen mine own free
  | some elseArm =>
    have lowersElse := lowers elseArm (by simp)
    refine steady.newBlock.bind fun elseBlock _ ⟨own', free'⟩ => ?_
    refine (steady.branch free free').bind fun _ _ _ => ?_
    refine (steady.lowerArm lowersThen mine own).bind fun first _ firstEnds => ?_
    refine (steady.lowerArm lowersElse mine own').bind fun second _ secondEnds => ?_
    refine steady.joinArms (meets elseArm rfl) mine fun pair member => ?_
    rcases List.mem_append.1 member with early | late
    · obtain ⟨yields, own⟩ := firstEnds pair (Option.mem_toList.1 early)
      exact ⟨⟨thenArm, List.mem_cons_self, yields⟩, own⟩
    · obtain ⟨yields, own⟩ := secondEnds pair (Option.mem_toList.1 late)
      exact ⟨⟨elseArm, List.mem_cons_of_mem _ List.mem_cons_self, yields⟩, own⟩

/-! ### Loops and jumps -/

theorem lowerLoopBody {func : FuncId} {block : BlockId} {targets : LoopTargets} {body : ExprId}
    (lowers : regime.Lowers walk body) (mine : regime.mine func) (own : regime.own block)
    (leave : regime.free targets.breakTo) (again : regime.free targets.continueTo) :
    Keeps regime id (lowerLoopBody walk func block targets body) context fun _ _ => True := by
  refine (steady.positionAt mine own).bind fun _ after _ => ?_
  have looped : Keeps regime id (inLoop targets (walk.expr body)) after fun _ _ => True :=
    .inLoop (steady.loops leave again) ((lowers.expr _).mono fun _ _ _ => trivial)
  refine looped.bind fun _ _ _ => Keeps.isLive.bind fun live _ _ => ?_
  split
  · exact (steady.jump again).mono fun _ _ _ => trivial
  · exact .pure trivial

theorem lowerWhile {test body : ExprId} (lowers : regime.Lowers walk test)
    (lowers' : regime.Lowers walk body) (span : Span) :
    Keeps regime id (lowerWhile walk test body span) context Finished := by
  refine steady.currentFunction.bind fun func _ ⟨mine, _⟩ => ?_
  refine steady.newBlock.bind fun testBlock _ ⟨own, free⟩ => ?_
  refine (steady.jump free).bind fun _ _ _ => (steady.positionAt mine own).bind fun _ _ _ => ?_
  refine lowers.withValue fun value _ _ _ => (steady.expectBool value span).bind fun _ _ _ => ?_
  refine steady.newBlock.bind fun bodyBlock _ ⟨ownBody, freeBody⟩ => ?_
  refine steady.newBlock.bind fun exit _ ⟨ownExit, freeExit⟩ => ?_
  refine (steady.branch freeBody freeExit).bind fun _ _ _ => ?_
  refine (steady.lowerLoopBody lowers' mine ownBody freeExit free).bind fun _ _ _ => ?_
  exact (steady.positionAt mine ownExit).bind fun _ _ live => .pure (live.finished _)

theorem lowerLoop {body : ExprId} (lowers : regime.Lowers walk body) (ty : TypeId) :
    Keeps regime id (lowerLoop walk body ty) context Finished := by
  refine steady.currentFunction.bind fun func _ ⟨mine, _⟩ => ?_
  refine steady.newBlock.bind fun bodyBlock _ ⟨ownBody, freeBody⟩ => ?_
  refine steady.newBlock.bind fun exit _ ⟨ownExit, freeExit⟩ => ?_
  refine (steady.jump freeBody).bind fun _ _ _ => ?_
  refine (steady.lowerLoopBody lowers mine ownBody freeExit freeBody).bind fun _ _ _ => ?_
  exact (steady.positionAt mine ownExit).bind fun _ _ live => .pure (live.finished _)

theorem lowerReturn {value : Option ExprId} (span : Span)
    (lowers : ∀ part ∈ value, regime.Lowers walk part) (exits : regime.Exits value) :
    Keeps regime id (lowerReturn walk value span) context Finished := by
  refine Keeps.get.bind ?_
  rintro _ context ⟨rfl, rfl, rules⟩
  split
  · exact steady.fails rfl
  · next ret found =>
    have answers := steady.answers rules.frames found
    cases value with
    | none =>
      exact (steady.ret (exits ret answers)).bind fun _ after _ =>
        .pure (finished_unreachable after)
    | some part =>
      exact (lowers part rfl).withValue fun value _ yields _ =>
        (steady.ret (exits ret value answers yields)).bind fun _ after _ =>
          .pure (finished_unreachable after)

end Constructs

end Regime.Steady

end TreeLowering.Lowering
