/-
This file defines monitored runs. A monitor stands around the steps of a run that are of interest:
the computation of a place, and the binding of a name to a new slot. It sees the state before and
after such a step and may stop the run there. A monitor that changes none of these steps leaves the
run as it is.
-/

import TreeLowering.Proofs.Flow.Program

namespace TreeLowering.Lowering

open TreeLowering.Ir TreeLowering.Tree

/-- What is done around the steps of a run that are looked at. -/
structure Monitor where
  /-- Around the computation of the place of an expression. -/
  place : ExprId → LowerM Place → LowerM Place
  /-- Around the step that binds a parameter, or a local that gets a slot. -/
  slot : LowerM Unit → LowerM Unit

namespace Monitor

/-- The monitor that looks at nothing. -/
def idle : Monitor := ⟨fun _ action => action, fun action => action⟩

/-! ### Monitored runs -/

section Lowering

variable (monitor : Monitor)

def lowerLet (walk : Walk) (name : Name) (mutable : Bool) (ty : TypeId) (init : Option ExprId) :
    LowerM Unit :=
  match init with
  | none => monitor.slot (bindSlot walk name mutable ty none none)
  | some initExpr =>
    thenLive () (walk.expr initExpr) fun value =>
      if mutable || walk.addressTaken.contains name then
        monitor.slot (bindSlot walk name mutable ty init (some value))
      else bindValue name value

def lowerStmt (walk : Walk) : Stmt → LowerM Unit
  | .bind (.ident name mutable) ty init _ => monitor.lowerLet walk name mutable ty init
  | stmt => Lowering.lowerStmt walk stmt

def lowerStmts (walk : Walk) : List Stmt → (tail : Option ExprId) → LowerM Value
  | [], some tail => walk.expr tail
  | [], none => return .unit
  | stmt :: rest, tail =>
    thenLive .unreachable (monitor.lowerStmt walk stmt) fun _ => lowerStmts walk rest tail

/-- Lowers an expression to its value; only a block has steps of its own to look at. -/
def lowerNode (walk : Walk) (expr : ExprId) : LowerM Value :=
  match walk.program.arena.get? expr with
  | some ⟨.block scope stmts tail, _, _⟩ => do
    if !(← isLive) then
      return .unreachable
    inScope scope (monitor.lowerStmts walk stmts tail)
  | _ => Lowering.lowerNode walk expr

mutual

/-- Lowers an expression to its value, monitored, through at most `fuel` levels. -/
def lowerWithin (source : Source) (taken : List Name) : (fuel : Nat) → ExprId → LowerM Value
  | 0, _ => throw .malformedTree
  | fuel + 1, expr =>
    monitor.lowerNode ⟨source, taken, lowerWithin source taken fuel, placeWithin source taken fuel⟩
      expr

/-- Lowers an expression to the address it denotes, monitored, through at most `fuel` levels. -/
def placeWithin (source : Source) (taken : List Name) : (fuel : Nat) → ExprId → LowerM Place
  | 0, _ => throw .malformedTree
  | fuel + 1, expr =>
    monitor.place expr (lowerNodePlace
      ⟨source, taken, lowerWithin source taken fuel, placeWithin source taken fuel⟩ expr)

end

/-- The walk through an expression that is at most `fuel` levels deep. -/
@[reducible] def walk (source : Source) (taken : List Name) (fuel : Nat) : Walk :=
  ⟨source, taken, monitor.lowerWithin source taken fuel, monitor.placeWithin source taken fuel⟩

def lowerExpr (source : Source) (taken : List Name) (expr : ExprId) : LowerM Value :=
  monitor.lowerWithin source taken source.exprDepth expr

def bindParams (source : Source) (taken : List Name) (func : FuncId) :
    (position : Nat) → List Tree.Param → LowerM Unit
  | _, [] => return ()
  | position, param :: rest => do
    let function ← build (Build.ask fun target => target.getFunction func)
    match function.paramValue? position with
    | none => throw (.unresolvedName (source.names.text param.name) param.span)
    | some value =>
      monitor.slot (bindParam source taken param value)
      bindParams source taken func (position + 1) rest

def lowerFunction (source : Source) (decl : FunctionDecl) (func : FuncId) : LowerM Unit := do
  match decl.body with
  | none => return ()
  | some body =>
    let entry ← build (Build.ensureEntry func)
    let function ← build (Build.ask fun target => target.getFunction func)
    build (Build.positionAt func entry)
    let taken := source.program.addressTaken body
    inFunction function.ret do
      inScope decl.scope do
        monitor.bindParams source taken func 0 decl.params
        thenLive () (monitor.lowerExpr source taken body) (finishBody function.ret)

def lowerItems (source : Source) : LowerM Unit := do
  source.program.items.forM (declareItem source)
  let declared ← source.program.functions.mapM fun decl => do
    return (decl, ← declareFn source decl)
  declared.forM fun (decl, func) => monitor.lowerFunction source decl func

/-- The module of a program that is lowered under the monitor. -/
def lowerProgram (source : Source) (options : Options) : Except Error Module :=
  match monitor.lowerItems source (Context.start options) with
  | .ok _ context => .ok context.builder.target
  | .error cause _ => .error cause

end Lowering

/-! ### Monitors that change nothing -/

/-- The monitor lets every step pass that binds a name. -/
structure Binds (monitor : Monitor) : Prop where
  lets : ∀ walk name mutable ty init value, monitor.slot (bindSlot walk name mutable ty init value) =
    bindSlot walk name mutable ty init value
  params : ∀ source taken param value, monitor.slot (bindParam source taken param value) =
    bindParam source taken param value

namespace Binds

variable {monitor : Monitor} (binds : monitor.Binds)

include binds

theorem lowerLet (walk : Walk) (name : Name) (mutable : Bool) (ty : TypeId)
    (init : Option ExprId) :
    monitor.lowerLet walk name mutable ty init = Lowering.lowerLet walk name mutable ty init := by
  cases init with
  | none => exact binds.lets walk name mutable ty none none
  | some initExpr => simp only [Monitor.lowerLet, Lowering.lowerLet, binds.lets]

theorem lowerStmts (walk : Walk) (stmts : List Stmt) (tail : Option ExprId) :
    monitor.lowerStmts walk stmts tail = Lowering.lowerStmts walk stmts tail := by
  have stmt : ∀ stmt, monitor.lowerStmt walk stmt = Lowering.lowerStmt walk stmt := by
    intro stmt
    unfold Monitor.lowerStmt
    split
    · exact binds.lowerLet ..
    · rfl
  induction stmts with
  | nil => cases tail <;> rfl
  | cons first rest inductionHypothesis =>
    rw [Monitor.lowerStmts, Lowering.lowerStmts, stmt, inductionHypothesis]

theorem lowerNode (walk : Walk) (expr : ExprId) :
    monitor.lowerNode walk expr = Lowering.lowerNode walk expr := by
  unfold Monitor.lowerNode
  split
  · next scope stmts tail _ _ found =>
    rw [binds.lowerStmts]
    unfold Lowering.lowerNode Walk.node
    rw [found]
    rfl
  · rfl

theorem bindParams (source : Source) (taken : List Name) (func : FuncId) (position : Nat)
    (params : List Tree.Param) :
    monitor.bindParams source taken func position params =
      Lowering.bindParams source taken func position params := by
  induction params generalizing position with
  | nil => rfl
  | cons param rest inductionHypothesis =>
    rw [Monitor.bindParams, Lowering.bindParams]
    refine bind_congr fun function => ?_
    cases function.paramValue? position with
    | none => rfl
    | some value => simp only [binds.params, inductionHypothesis]

theorem lowerFunction (source : Source) :
    monitor.lowerFunction source = lowerFunctionBy (monitor.lowerExpr source) source := by
  funext decl func
  unfold Monitor.lowerFunction lowerFunctionBy
  cases decl.body with
  | none => rfl
  | some body => simp only [binds.bindParams]

/-- A run that is monitored in its bodies only. -/
theorem lowerItems (source : Source) :
    monitor.lowerItems source = lowerItemsBy (monitor.lowerExpr source) source := by
  rw [Monitor.lowerItems, lowerItemsBy, binds.lowerFunction]

end Binds

/-- The monitor lets every step pass. -/
structure Silent (monitor : Monitor) : Prop extends Binds monitor where
  places : ∀ expr action, monitor.place expr action = action

theorem silent_idle : idle.Silent :=
  ⟨⟨fun _ _ _ _ _ _ => rfl, fun _ _ _ _ => rfl⟩, fun _ _ => rfl⟩

namespace Silent

variable {monitor : Monitor} (silent : monitor.Silent)

include silent

theorem within (source : Source) (taken : List Name) (fuel : Nat) :
    monitor.lowerWithin source taken fuel = Lowering.lowerWithin source taken fuel ∧
      monitor.placeWithin source taken fuel = Lowering.placeWithin source taken fuel := by
  induction fuel with
  | zero => exact ⟨rfl, rfl⟩
  | succ fuel inductionHypothesis =>
    obtain ⟨exprs, places⟩ := inductionHypothesis
    refine ⟨funext fun expr => ?_, funext fun expr => ?_⟩
    · rw [Monitor.lowerWithin, Lowering.lowerWithin, silent.lowerNode, exprs, places]
    · rw [Monitor.placeWithin, Lowering.placeWithin, silent.places, exprs, places]

theorem lowerExpr (source : Source) : monitor.lowerExpr source = Lowering.lowerExpr source := by
  funext taken expr
  rw [Monitor.lowerExpr, Lowering.lowerExpr, (silent.within source taken _).1]

theorem lowerFunction (source : Source) :
    monitor.lowerFunction source = Lowering.lowerFunction source := by
  rw [silent.toBinds.lowerFunction, silent.lowerExpr, lowerFunctionBy_lowerExpr]

/-- A run whose monitor lets every step pass is the run itself. -/
theorem lowerProgram (source : Source) (options : Options) :
    monitor.lowerProgram source options = Lowering.lowerProgram source options := by
  rw [Monitor.lowerProgram, silent.lowerItems, silent.lowerExpr]
  rfl

end Silent

end Monitor

end TreeLowering.Lowering
