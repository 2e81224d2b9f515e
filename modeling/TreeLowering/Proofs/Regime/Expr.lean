/-
This file proves that whole expressions and function bodies keep to a steady regime. One level of an
expression keeps to it when its parts do; a regime that lets the bound on the depth end a run is
kept at every depth.
-/

import TreeLowering.Proofs.Regime.Construct

namespace TreeLowering.Tree.ExprKind

/-- Whether the value of an expression is read from the place that it denotes. -/
def isPlace : ExprKind → Bool
  | deref _ | field .. | index .. => true
  | _ => false

/-- The jump that an expression is, if it is one. -/
def jump? : ExprKind → Option Lowering.LoopJump
  | breakLoop => some .leave
  | continueLoop => some .again
  | _ => none

end TreeLowering.Tree.ExprKind

namespace TreeLowering.Lowering

open TreeLowering.Ir TreeLowering.Tree

/-- The regime allows what an expression joins or returns, and where it jumps. -/
structure Regime.Fits (regime : Regime) (kind : ExprKind) (ty : TypeId) : Prop where
  meets : ∀ {test thenArm elseArm}, kind = .cond test thenArm (some elseArm) →
    regime.Meets [thenArm, elseArm] ty
  exits : ∀ {value}, kind = .returnWith value → regime.Exits value
  strays : ∀ {jump}, kind.jump? = some jump → regime.Strays jump

/-- A regime that allows every join and every return allows any expression. -/
theorem Regime.Fits.of_trivial {regime : Regime} (joins : ∀ ty incoming, regime.joins ty incoming)
    (returns : ∀ value, regime.returns value)
    (strays : ∀ jump span, regime.excused (.outsideLoop jump span)) (kind : ExprKind)
    (ty : TypeId) : regime.Fits kind ty := by
  refine ⟨fun _ _ _ _ _ _ => joins _ _, fun {value} _ => ?_, fun {jump} _ _ span _ _ =>
    strays jump span⟩
  cases value with
  | none => exact fun _ _ => returns _
  | some part => exact fun _ _ _ _ => returns _

namespace Regime.Steady

/-! ### Expressions -/

section Expr

variable {regime : Regime} {walk : Walk} {context : Context} {expr : ExprId}
  (steady : regime.Steady walk.toSource)
  (found : walk.program.arena.get? expr = none → regime.excused .malformedTree)

include steady found

/-- One level of an expression, lowered to its value. -/
theorem lowerNode
    (parts : ∀ node, walk.program.arena.get? expr = some node →
      ∀ part ∈ node.kind.children, regime.Lowers walk part)
    (fits : ∀ node, walk.program.arena.get? expr = some node → regime.Fits node.kind node.ty)
    (home : ∀ node, walk.program.arena.get? expr = some node → node.kind.isPlace = true →
      ∀ context, Keeps regime id (walk.place expr) context fun _ _ => True) :
    Keeps regime id (lowerNode walk expr) context Finished := by
  refine Keeps.whenLive (fun _ => finished_unreachable context) fun live => ?_
  refine (Keeps.node found).bind ?_
  rintro ⟨kind, span, ty⟩ context ⟨stored, rfl⟩
  have lowers : ∀ part ∈ kind.children, regime.Lowers walk part := parts _ stored
  have fitting : regime.Fits kind ty := fits _ stored
  have read : kind.isPlace = true → Keeps regime id
      (thenLive .unreachable (walk.place expr) Lowering.loadPlace) context Finished := fun place =>
    (home _ stored place context).thenLive
      (fun place _ _ _ => (steady.loadPlace place).mono fun value _ live => live.finished value)
      fun _ after _ _ => finished_unreachable after
  cases kind with
  | int value => exact steady.lowerInt value ty live
  | bool value => exact .pure (live.finished _)
  | char value => exact .pure (live.finished _)
  | str text => exact steady.stringLiteral _ live
  | unit => exact .pure (live.finished _)
  | path segments => exact steady.lowerPath segments span live
  | binary op left right =>
    exact steady.lowerBinary op (lowers left (by simp [ExprKind.children]))
      (lowers right (by simp [ExprKind.children])) span
  | unary op operand => exact steady.lowerUnary op (lowers operand List.mem_cons_self)
  | assign target value =>
    exact steady.lowerAssign (lowers target (by simp [ExprKind.children]))
      (lowers value (by simp [ExprKind.children])) span
  | compound op target value =>
    exact steady.lowerCompound op (lowers target (by simp [ExprKind.children]))
      (lowers value (by simp [ExprKind.children])) span
  | borrow mutable operand =>
    exact steady.lowerBorrow mutable (lowers operand List.mem_cons_self) span
  | cast operand => exact steady.lowerCast (lowers operand List.mem_cons_self) ty span
  | deref operand => exact read rfl
  | field base field => exact read rfl
  | index base position => exact read rfl
  | block scope stmts tail =>
    refine steady.lowerBlock scope (fun stmt member part child => lowers part ?_)
      (fun part member => lowers part ?_) live
    · exact List.mem_append_left _ (List.mem_filterMap.2 ⟨stmt, member, child⟩)
    · exact List.mem_append_right _ (Option.mem_toList.2 member)
  | cond test thenArm elseArm =>
    refine steady.lowerCond span lowers fun arm member => ?_
    cases member
    exact fitting.meets rfl
  | whileLoop test body =>
    exact steady.lowerWhile (lowers test (by simp [ExprKind.children]))
      (lowers body (by simp [ExprKind.children])) span
  | loop body => exact steady.lowerLoop (lowers body List.mem_cons_self) ty
  | breakLoop => exact steady.lowerLoopJump (fitting.strays rfl) span
  | continueLoop => exact steady.lowerLoopJump (fitting.strays rfl) span
  | returnWith value =>
    exact steady.lowerReturn span (fun part member => lowers part (Option.mem_toList.2 member))
      (fitting.exits rfl)
  | call callee args =>
    exact steady.lowerCall (lowers callee List.mem_cons_self)
      (fun arg member => lowers arg (List.mem_cons_of_mem _ member)) span
  | structLit inits =>
    exact steady.lowerStructLit (fun init member => lowers init.value (List.mem_map_of_mem member))
      ty span
  | array elems => exact steady.lowerArray lowers ty span
  | methodCall receiver method args => exact steady.fails rfl
  | tuple elems => exact steady.fails rfl
  | select scrutinee => exact steady.fails rfl

/-- One level of an expression, lowered to the address it denotes. -/
theorem lowerNodePlace
    (parts : ∀ node, walk.program.arena.get? expr = some node →
      ∀ part ∈ node.kind.children, regime.Lowers walk part)
    (home : ∀ node, walk.program.arena.get? expr = some node → node.kind.isPlace = false →
      ∀ context, Keeps regime id (walk.expr expr) context fun _ _ => True) :
    Keeps regime id (lowerNodePlace walk expr) context fun _ _ => True := by
  refine Keeps.whenLive (fun _ => trivial) fun live => ?_
  refine (Keeps.node found).bind ?_
  rintro ⟨kind, span, ty⟩ context ⟨stored, rfl⟩
  have lowers : ∀ part ∈ kind.children, regime.Lowers walk part := parts _ stored
  have homeless : kind.isPlace = false → Keeps regime id
      (thenLive .unreachable (walk.expr expr) fun value => Lowering.spill value none) context
      fun _ _ => True := fun plain =>
    (home _ stored plain context).thenLive (fun value _ _ _ => steady.spill value none)
      fun _ _ _ _ => trivial
  have nowhere : Keeps regime id
      (throw (.notAddressable kind.describe span) : LowerM Place) context fun _ _ => True :=
    steady.fails rfl
  cases kind with
  | path segments => exact steady.pathPlace segments span
  | deref operand =>
    refine ((lowers operand List.mem_cons_self).expr context).thenLive (fun pointer _ _ _ => ?_)
      fun _ _ _ _ => trivial
    exact (steady.derefPlace pointer span).mono fun _ _ _ => trivial
  | field base field => exact steady.fieldPlace (lowers base List.mem_cons_self) field span
  | index base position =>
    exact steady.elementPlace (lowers base (by simp [ExprKind.children]))
      (lowers position (by simp [ExprKind.children])) span
  | assign target value => exact nowhere
  | compound op target value => exact nowhere
  | whileLoop test body => exact nowhere
  | loop body => exact nowhere
  | breakLoop => exact nowhere
  | continueLoop => exact nowhere
  | returnWith value => exact nowhere
  | _ => exact homeless rfl

end Expr

/-- A regime that excuses a tree that is too deep, and asks nothing of values, is kept at every
depth. -/
theorem within {regime : Regime} {source : Source} (steady : regime.Steady source)
    (excused : regime.excused .malformedTree) (fits : ∀ kind ty, regime.Fits kind ty)
    (yields : ∀ part value, regime.yields part value) (taken : List Name) (fuel : Nat)
    (part : ExprId) :
    regime.Lowers
      ⟨source, taken, lowerWithin source taken fuel, placeWithin source taken fuel⟩ part := by
  induction fuel generalizing part with
  | zero => exact ⟨fun _ => excused, fun _ => .throw excused, fun _ => .throw excused⟩
  | succ fuel inductionHypothesis =>
    refine ⟨fun _ => excused, fun context => ?_, fun context => ?_⟩
    · refine Keeps.mono ?_ fun value _ finished => ⟨fun _ => yields part value, finished⟩
      exact lowerNode steady (fun _ => excused) (fun _ _ part _ => inductionHypothesis part)
        (fun node _ => fits node.kind node.ty) fun _ _ _ => (inductionHypothesis part).place
    · exact lowerNodePlace steady (fun _ => excused)
        (fun _ _ part _ => inductionHypothesis part) fun _ _ _ context =>
          ((inductionHypothesis part).expr context).mono fun _ _ _ => trivial

/-! ### Declarations -/

section Declarations

variable {regime : Regime} {source : Source} {view : Env → Env} {context : Context}
  (steady : regime.Steady source)

include steady

theorem declareItem (item : Item) :
    Keeps regime view (declareItem source item) context fun _ _ => True := by
  cases item with
  | struct decl => exact .discard (steady.lowerType.mono fun _ _ _ => trivial)
  | const decl =>
    exact .discard (steady.lowerType.bind fun _ _ _ =>
      steady.declareGlobal.mono fun _ _ _ => trivial)
  | function decl => exact .pure trivial
  | methods group => exact .pure trivial

theorem declareFn (decl : FunctionDecl) :
    Keeps regime view (declareFn source decl) context fun _ after =>
      after.builder.cursor = context.builder.cursor := by
  have params : ∀ context, Keeps regime view (decl.params.mapM fun param => do
      return Ir.Param.mk (source.names.text param.name)
        (← Lowering.lowerType source param.ty)) context fun results after =>
      List.Forall₂ (fun _ _ => True) decl.params results ∧
        after.builder.cursor = context.builder.cursor := fun context =>
    Keeps.mapM fun param _ _ => steady.lowerType.bind fun _ _ kept => .pure ⟨trivial, kept.2⟩
  refine (params context).bind fun _ first kept => ?_
  refine steady.lowerType.bind fun ret second kept' => ?_
  exact steady.declareFunction.mono fun _ _ same => same.trans (kept'.2.trans kept.2)

/-- All declarations of a program, with the functions that were declared. -/
theorem declarations {next : List (FunctionDecl × FuncId) → LowerM Unit}
    (rest : ∀ declared after, declared.map Prod.fst = source.program.functions →
      Keeps regime view (next declared) after fun _ _ => True) :
    Keeps regime view (do
      source.program.items.forM (Lowering.declareItem source)
      let declared ← source.program.functions.mapM fun decl => do
        return (decl, ← Lowering.declareFn source decl)
      next declared) context fun _ _ => True := by
  refine (Keeps.forM fun item _ _ => steady.declareItem item).bind fun _ _ _ => ?_
  have named : ∀ {decls : List FunctionDecl} {declared : List (FunctionDecl × FuncId)},
      List.Forall₂ (fun decl pair => Prod.fst pair = decl) decls declared →
        declared.map Prod.fst = decls := by
    intro decls declared each
    induction each with
    | nil => rfl
    | cons same _ inductionHypothesis => rw [List.map_cons, same, inductionHypothesis]
  refine (Keeps.mapM fun decl _ _ => ?_).bind fun declared after ⟨each, _⟩ =>
    rest declared after (named each)
  exact (steady.declareFn decl).bind fun func after same => .pure ⟨rfl, same⟩

end Declarations

/-! ### Bodies -/

section Body

variable {regime : Regime} {source : Source} {context : Context}
  (steady : regime.Steady source)

include steady

theorem bindParam (taken : List Name) (param : Tree.Param) (value : Value) :
    Keeps regime Env.leaveScope (bindParam source taken param value) context fun _ _ => True := by
  unfold Lowering.bindParam
  split
  · exact (steady.spill value _).bind fun _ _ _ => .bindName trivial
  · exact .bindName trivial

theorem bindParams (taken : List Name) (func : FuncId) (position : Nat)
    (params : List Tree.Param) :
    Keeps regime Env.leaveScope (bindParams source taken func position params) context
      fun _ _ => True := by
  induction params generalizing context position with
  | nil => exact .pure trivial
  | cons param rest inductionHypothesis =>
    refine (steady.ask (Build.fair_getFunction func)).bind fun function _ _ => ?_
    split
    · exact steady.fails rfl
    · exact (steady.bindParam taken param _).bind fun _ _ _ => inductionHypothesis (position + 1)

/-- A body, from its parameters to the return at its end. -/
theorem body {decl : FunctionDecl} {taken : List Name} {func : FuncId} {ret : Ty}
    {lowering : LowerM Value} {body : ExprId}
    (entered : regime.frames (context.env.pushFunction ret).frames)
    (lowers : ∀ context, Keeps regime id lowering context (regime.Gives body))
    (finishes : ∀ value, regime.yields body value →
      regime.returns (if ret.isVoid then none else some (retype ret value))) :
    Keeps regime id (inFunction ret do
      inScope decl.scope do
        Lowering.bindParams source taken func 0 decl.params
        thenLive () lowering (finishBody ret)) context fun _ _ => True := by
  refine .inFunction entered (.inScope ?_)
  refine (steady.bindParams taken func 0 decl.params).bind fun _ _ _ => ?_
  refine (lowers _).seen.thenLive (fun value _ gives live => ?_) fun _ _ _ _ => trivial
  exact (steady.ret (finishes value (gives.1 live))).mono fun _ _ _ => trivial

end Body

end Regime.Steady

end TreeLowering.Lowering
