/-
This file compares two ways to lower a program that differ in what they stop at. One mirrors the
other when, from any state, both end alike or the first has raised an alarm. Every construct mirrors
itself when its parts are mirrored, because no construct looks at an error.
-/

import TreeLowering.Proofs.Flow.Program
import TreeLowering.Proofs.Regime.Expr
import TreeLowering.Proofs.Rewrite.Tables

namespace TreeLowering.Lowering

open TreeLowering.Ir TreeLowering.Tree

/-- From any state, `mirror` ends as `action` does, or it raises the alarm. -/
def Mirrors {α : Type} (alarm : Error) (action mirror : LowerM α) : Prop :=
  ∀ context, mirror context = action context ∨ ∃ after, mirror context = .error alarm after

/-! ### Rules -/

section Rules

variable {α β : Type} {alarm : Error}

theorem Mirrors.refl (action : LowerM α) : Mirrors alarm action action := fun _ => .inl rfl

theorem Mirrors.of_eq {action mirror : LowerM α} (same : mirror = action) :
    Mirrors alarm action mirror := fun context => .inl (congrFun same context)

/-- A mirror that returns does what it mirrors. -/
theorem Mirrors.of_ok {action mirror : LowerM α} (mirrors : Mirrors alarm action mirror)
    {context after : Context} {result : α} (returned : mirror context = .ok result after) :
    action context = .ok result after := by
  rcases mirrors context with same | ⟨_, raised⟩
  · rw [← same, returned]
  · rw [raised] at returned
    cases returned

theorem Mirrors.bind {action mirror : LowerM α} {next next' : α → LowerM β}
    (part : Mirrors alarm action mirror) (rest : ∀ result, Mirrors alarm (next result) (next' result)) :
    Mirrors alarm (action >>= next) (mirror >>= next') := by
  intro context
  rcases part context with same | ⟨after, raised⟩
  · cases ended : action context with
    | ok result after =>
      rw [run_bind ended, run_bind (same.trans ended)]
      exact rest result after
    | error cause after =>
      rw [run_bind_error ended, run_bind_error (same.trans ended)]
      exact .inl rfl
  · exact .inr ⟨after, run_bind_error raised⟩

theorem Mirrors.thenLive {dead : β} {action mirror : LowerM α} {next next' : α → LowerM β}
    (part : Mirrors alarm action mirror) (rest : ∀ result, Mirrors alarm (next result) (next' result)) :
    Mirrors alarm (thenLive dead action next) (thenLive dead mirror next') := by
  refine part.bind fun result => (Mirrors.refl isLive).bind fun live => ?_
  cases live
  · exact .refl _
  · exact rest result

theorem Mirrors.discard {action mirror : LowerM α} (part : Mirrors alarm action mirror) :
    Mirrors alarm (discard action) (discard mirror) := by
  have unfolded : ∀ action : LowerM α, Functor.discard action = action >>= fun _ => pure () := by
    intro action
    rw [Functor.discard, map_const, Function.comp_apply, bind_pure_comp]
  rw [unfolded, unfolded]
  exact part.bind fun _ => .refl _

theorem Mirrors.forM {items : List β} {action mirror : β → LowerM PUnit}
    (each : ∀ item, Mirrors alarm (action item) (mirror item)) :
    Mirrors alarm (items.forM action) (items.forM mirror) := by
  induction items with
  | nil => exact .refl _
  | cons item rest inductionHypothesis =>
    exact (each item).bind fun _ => inductionHypothesis

/-- What is done around an action does not depend on the action. -/
theorem Mirrors.around {action mirror : LowerM α} {whole : LowerM α → LowerM α}
    (part : Mirrors alarm action mirror) (enter : Context → Context)
    (leave : Context → Context → Context)
    (opens : ∀ action context, whole action context = match action (enter context) with
      | .ok result after => .ok result (leave context after)
      | .error cause after => .error cause (leave context after)) :
    Mirrors alarm (whole action) (whole mirror) := by
  intro context
  rw [opens, opens]
  rcases part (enter context) with same | ⟨after, raised⟩
  · rw [same]
    exact .inl rfl
  · rw [raised]
    exact .inr ⟨_, rfl⟩

theorem Mirrors.inScope {scope : ScopeId} {action mirror : LowerM α}
    (part : Mirrors alarm action mirror) :
    Mirrors alarm (inScope scope action) (inScope scope mirror) :=
  part.around (·.enterScope scope) (fun before after => after.leaveScope before.scope)
    fun _ _ => rfl

theorem Mirrors.inLoop {targets : LoopTargets} {action mirror : LowerM α}
    (part : Mirrors alarm action mirror) :
    Mirrors alarm (inLoop targets action) (inLoop targets mirror) :=
  part.around (fun before => { before with env := before.env.pushLoop targets })
    (fun _ after => { after with env := after.env.popLoop }) fun _ _ => rfl

theorem Mirrors.inFunction {ret : Ty} {action mirror : LowerM α}
    (part : Mirrors alarm action mirror) :
    Mirrors alarm (inFunction ret action) (inFunction ret mirror) :=
  part.around (fun before => { before with env := before.env.pushFunction ret })
    (fun _ after => { after with env := after.env.popFunction }) fun _ _ => rfl

end Rules

/-! ### Constructs -/

/-- The walk with other ways to lower the parts. -/
@[reducible] def Walk.through (walk : Walk) (expr : ExprId → LowerM Value)
    (place : ExprId → LowerM Place) : Walk :=
  { walk with expr, place }

/-- A part is the same in both walks, up to the order of initialisers, and its lowering is
mirrored. -/
structure Mirrored (alarm : Error) (walk walk' : Walk) (part : ExprId) : Prop where
  stored : Reordered walk.program.types (walk.program.arena.get? part)
    (walk'.program.arena.get? part)
  expr : Mirrors alarm (walk.expr part) (walk'.expr part)
  place : Mirrors alarm (walk.place part) (walk'.place part)

section Constructs

variable {alarm : Error} {walk walk' : Walk}

theorem mirrors_args {args : List ExprId}
    (parts : ∀ arg ∈ args, Mirrors alarm (walk.expr arg) (walk'.expr arg)) (callee : Value) (ret : Ty)
    (done : List Value) :
    Mirrors alarm (lowerArgs walk callee ret done args) (lowerArgs walk' callee ret done args) := by
  induction args generalizing done with
  | nil => exact .refl _
  | cons arg rest inductionHypothesis =>
    exact (parts arg List.mem_cons_self).thenLive fun value =>
      inductionHypothesis (fun arg member => parts arg (List.mem_cons_of_mem _ member)) (value :: done)

theorem mirrors_elements {elems : List ExprId}
    (parts : ∀ elem ∈ elems, Mirrors alarm (walk.expr elem) (walk'.expr elem)) (arrayTy elemTy : Ty)
    (slot : Value) (position : Nat) :
    Mirrors alarm (lowerElements walk arrayTy elemTy slot position elems)
      (lowerElements walk' arrayTy elemTy slot position elems) := by
  induction elems generalizing position with
  | nil => exact .refl _
  | cons elem rest inductionHypothesis =>
    exact (parts elem List.mem_cons_self).thenLive fun value => (Mirrors.refl _).bind fun _ =>
      inductionHypothesis (fun elem member => parts elem (List.mem_cons_of_mem _ member))
        (position + 1)

/-- What follows the right operand does not depend on how it was lowered. -/
theorem mirrors_shortCircuit {left right : ExprId}
    (first : Mirrors alarm (walk.expr left) (walk'.expr left))
    (second : Mirrors alarm (walk.expr right) (walk'.expr right)) (isAnd : Bool) (span : Span) :
    Mirrors alarm (lowerShortCircuit walk isAnd left right span)
      (lowerShortCircuit walk' isAnd left right span) := by
  refine first.thenLive fun left => (Mirrors.refl _).bind fun _ => ?_
  refine (Mirrors.refl _).bind fun func => (Mirrors.refl _).bind fun slot => ?_
  refine (Mirrors.refl _).bind fun _ => (Mirrors.refl _).bind fun rightBlock => ?_
  refine (Mirrors.refl _).bind fun merge => (Mirrors.refl _).bind fun _ => ?_
  exact (Mirrors.refl _).bind fun _ => second.bind fun _ => .refl _

theorem mirrors_binary {left right : ExprId}
    (first : Mirrors alarm (walk.expr left) (walk'.expr left))
    (second : Mirrors alarm (walk.expr right) (walk'.expr right)) (op : BinaryOp) (span : Span) :
    Mirrors alarm (lowerBinary walk op left right span) (lowerBinary walk' op left right span) := by
  unfold lowerBinary
  split
  · exact mirrors_shortCircuit first second (op == .and) span
  · exact first.thenLive fun _ => second.thenLive fun _ => .refl _

theorem mirrors_loopBody {body : ExprId}
    (inside : Mirrors alarm (walk.expr body) (walk'.expr body)) (func : FuncId) (block : BlockId)
    (targets : LoopTargets) :
    Mirrors alarm (lowerLoopBody walk func block targets body)
      (lowerLoopBody walk' func block targets body) :=
  (Mirrors.refl _).bind fun _ => inside.inLoop.bind fun _ => .refl _

theorem mirrors_while {test body : ExprId}
    (first : Mirrors alarm (walk.expr test) (walk'.expr test))
    (inside : Mirrors alarm (walk.expr body) (walk'.expr body)) (span : Span) :
    Mirrors alarm (lowerWhile walk test body span) (lowerWhile walk' test body span) := by
  refine (Mirrors.refl _).bind fun func => (Mirrors.refl _).bind fun testBlock => ?_
  refine (Mirrors.refl _).bind fun _ => (Mirrors.refl _).bind fun _ => ?_
  refine first.thenLive fun test => (Mirrors.refl _).bind fun _ => ?_
  refine (Mirrors.refl _).bind fun bodyBlock => (Mirrors.refl _).bind fun exit => ?_
  exact (Mirrors.refl _).bind fun _ =>
    (mirrors_loopBody inside func bodyBlock ⟨exit, testBlock⟩).bind fun _ => .refl _

theorem mirrors_loop {body : ExprId} (inside : Mirrors alarm (walk.expr body) (walk'.expr body))
    (ty : TypeId) : Mirrors alarm (lowerLoop walk body ty) (lowerLoop walk' body ty) := by
  refine (Mirrors.refl _).bind fun func => (Mirrors.refl _).bind fun bodyBlock => ?_
  refine (Mirrors.refl _).bind fun exit => (Mirrors.refl _).bind fun _ => ?_
  exact (mirrors_loopBody inside func bodyBlock ⟨exit, bodyBlock⟩).bind fun _ => .refl _

theorem mirrors_return {value : Option ExprId}
    (given : ∀ part ∈ value, Mirrors alarm (walk.expr part) (walk'.expr part)) (span : Span) :
    Mirrors alarm (lowerReturn walk value span) (lowerReturn walk' value span) := by
  refine (Mirrors.refl _).bind fun context => ?_
  cases context.env.returnType? with
  | none => exact .refl _
  | some ret =>
    cases value with
    | none => exact .refl _
    | some value => exact (given value rfl).thenLive fun _ => .refl _

theorem mirrors_basePlace {base : ExprId}
    (value : Mirrors alarm (walk.expr base) (walk'.expr base))
    (place : Mirrors alarm (walk.place base) (walk'.place base)) (references : Nat) (span : Span) :
    Mirrors alarm (basePlace walk base references span) (basePlace walk' base references span) := by
  cases references with
  | zero => exact place
  | succ more => exact value.thenLive fun _ => .refl _

theorem mirrors_withTarget {next next' : Place → LowerM Value} {target : ExprId}
    (place : Mirrors alarm (walk.place target) (walk'.place target)) (span : Span)
    (rest : ∀ found, Mirrors alarm (next found) (next' found)) :
    Mirrors alarm (withTarget walk target span next) (withTarget walk' target span next') := by
  refine place.thenLive fun found => ?_
  cases found.mutable
  · exact .refl _
  · exact rest found

/-! ### Constructs that look things up -/

variable (tables : walk.toSource.SameTables walk'.toSource)

include tables

theorem mirrors_call {callee : ExprId} {args : List ExprId}
    (stored : Reordered walk.program.types (walk.program.arena.get? callee)
      (walk'.program.arena.get? callee))
    (parts : ∀ arg ∈ args, Mirrors alarm (walk.expr arg) (walk'.expr arg)) (span : Span) :
    Mirrors alarm (lowerCall walk callee args span) (lowerCall walk' callee args span) := by
  unfold lowerCall Walk.node
  generalize walk.program.arena.get? callee = node at stored
  generalize walk'.program.arena.get? callee = node' at stored
  cases stored with
  | structLit => exact .refl _
  | same =>
    refine (Mirrors.refl _).bind fun node => ?_
    obtain ⟨kind, _, _⟩ := node
    cases kind with
    | path segments =>
      dsimp only
      rw [tables.singleName]
      refine (Mirrors.refl _).bind fun name => ?_
      rw [tables.calledFunction]
      refine (Mirrors.refl _).bind fun func => (Mirrors.refl _).bind fun calleeValue => ?_
      exact (Mirrors.refl _).bind fun function => mirrors_args parts calleeValue function.ret []
    | _ => exact .refl _

/-- Each field finds its own initialiser in both lists. -/
theorem mirrors_fields {inits inits' : List FieldInit}
    (parts : ∀ init ∈ inits, Mirrors alarm (walk.expr init.value) (walk'.expr init.value))
    (found : ∀ field, (inits'.find? fun init => init.name == field) =
      inits.find? fun init => init.name == field)
    (structTy : Ty) (slot : Value) (span : Span) (position : Nat) (fields : List (Name × TypeId)) :
    Mirrors alarm (lowerFields walk structTy slot inits span position fields)
      (lowerFields walk' structTy slot inits' span position fields) := by
  induction fields generalizing position with
  | nil => exact .refl _
  | cons entry rest inductionHypothesis =>
    obtain ⟨field, fieldTy⟩ := entry
    unfold lowerFields
    rw [found, tables.text, tables.lowerType]
    cases own : inits.find? fun init => init.name == field with
    | none => exact .refl _
    | some init =>
      refine (parts init (List.mem_of_find?_eq_some own)).thenLive fun value => ?_
      exact (Mirrors.refl _).bind fun _ => (Mirrors.refl _).bind fun _ =>
        inductionHypothesis (position + 1)

theorem mirrors_structLit {inits inits' : List FieldInit} {ty : TypeId}
    (parts : ∀ init ∈ inits, Mirrors alarm (walk.expr init.value) (walk'.expr init.value))
    (found : ∀ field, (inits'.find? fun init => init.name == field) =
      inits.find? fun init => init.name == field)
    (strays : ∀ definition ∈ walk.program.types.structDef? ty,
      (inits'.find? fun init => (definition.fieldIndex? init.name).isNone) =
        inits.find? fun init => (definition.fieldIndex? init.name).isNone) (span : Span) :
    Mirrors alarm (lowerStructLit walk inits ty span) (lowerStructLit walk' inits' ty span) := by
  unfold lowerStructLit
  rw [tables.lowerType, tables.types]
  refine (Mirrors.refl _).bind fun structTy => ?_
  cases known : walk.program.types.structDef? ty with
  | none => exact .refl _
  | some definition =>
    dsimp only
    rw [strays definition known]
    cases inits.find? fun init => (definition.fieldIndex? init.name).isNone with
    | some stray =>
      dsimp only
      rw [tables.text]
      exact .refl _
    | none =>
      exact (Mirrors.refl _).bind fun slot =>
        mirrors_fields tables parts found structTy slot span 0 definition.fields

theorem mirrors_array {elems : List ExprId}
    (parts : ∀ elem ∈ elems, Mirrors alarm (walk.expr elem) (walk'.expr elem)) (ty : TypeId)
    (span : Span) :
    Mirrors alarm (lowerArray walk elems ty span) (lowerArray walk' elems ty span) := by
  unfold lowerArray
  rw [tables.lowerType]
  refine (Mirrors.refl _).bind fun arrayTy => ?_
  cases arrayTy with
  | array elemTy len => exact (Mirrors.refl _).bind fun slot => mirrors_elements parts _ elemTy slot 0
  | _ => exact .refl _

theorem mirrors_cast {operand : ExprId}
    (part : Mirrors alarm (walk.expr operand) (walk'.expr operand)) (ty : TypeId) (span : Span) :
    Mirrors alarm (lowerCast walk operand ty span) (lowerCast walk' operand ty span) := by
  refine part.thenLive fun value => ?_
  rw [tables.lowerType]
  exact .refl _

theorem mirrors_cond {test thenArm : ExprId} {elseArm : Option ExprId}
    (first : Mirrors alarm (walk.expr test) (walk'.expr test))
    (arms : ∀ arm ∈ thenArm :: elseArm.toList, Mirrors alarm (walk.expr arm) (walk'.expr arm))
    (ty : TypeId) (span : Span) :
    Mirrors alarm (lowerCond walk test thenArm elseArm ty span)
      (lowerCond walk' test thenArm elseArm ty span) := by
  have lowered : ∀ func block, ∀ arm ∈ thenArm :: elseArm.toList,
      Mirrors alarm (lowerArm walk func block arm) (lowerArm walk' func block arm) :=
    fun func block arm member => (Mirrors.refl _).bind fun _ => (arms arm member).bind fun _ => .refl _
  have joined : ∀ func incoming, joinArms walk' func ty incoming = joinArms walk func ty incoming :=
    fun func incoming => by
      unfold joinArms
      rw [tables.lowerType]
  refine first.thenLive fun test => (Mirrors.refl _).bind fun _ => ?_
  refine (Mirrors.refl _).bind fun func => (Mirrors.refl _).bind fun thenBlock => ?_
  cases elseArm with
  | none =>
    refine (Mirrors.refl _).bind fun merge => (Mirrors.refl _).bind fun _ => ?_
    exact (Mirrors.refl _).bind fun _ => (arms thenArm List.mem_cons_self).bind fun _ => .refl _
  | some elseArm =>
    refine (Mirrors.refl _).bind fun elseBlock => (Mirrors.refl _).bind fun _ => ?_
    refine (lowered func thenBlock thenArm List.mem_cons_self).bind fun first => ?_
    refine (lowered func elseBlock elseArm (by simp)).bind fun second => ?_
    rw [joined]
    exact .refl _

theorem mirrors_fieldPlace {base : ExprId} (part : Mirrored alarm walk walk' base) (field : Name)
    (span : Span) :
    Mirrors alarm (fieldPlace walk base field span) (fieldPlace walk' base field span) := by
  unfold fieldPlace
  rw [Source.SameTables.typeOf part.stored, tables.types, tables.lowerType, tables.text]
  exact (Mirrors.refl _).bind fun _ =>
    (mirrors_basePlace part.expr part.place _ span).thenLive fun _ => .refl _

theorem mirrors_elementPlace {base position : ExprId} (part : Mirrored alarm walk walk' base)
    (index : Mirrors alarm (walk.expr position) (walk'.expr position)) (span : Span) :
    Mirrors alarm (elementPlace walk base position span) (elementPlace walk' base position span) := by
  unfold elementPlace
  rw [Source.SameTables.typeOf part.stored, tables.types]
  refine (Mirrors.refl _).bind fun _ =>
    (mirrors_basePlace part.expr part.place _ span).thenLive fun place => ?_
  cases place.ty with
  | array elemTy len => exact index.thenLive fun _ => .refl _
  | _ => exact .refl _

variable (taken : ∀ name, walk'.addressTaken.contains name = walk.addressTaken.contains name)

include taken

theorem mirrors_stmts {stmts : List Stmt} {tail : Option ExprId}
    (parts : ∀ part ∈ stmts.filterMap Stmt.child? ++ tail.toList, Mirrored alarm walk walk' part) :
    Mirrors alarm (lowerStmts walk stmts tail) (lowerStmts walk' stmts tail) := by
  induction stmts with
  | nil =>
    cases tail with
    | none => exact .refl _
    | some tail => exact (parts tail (by simp)).expr
  | cons stmt rest inductionHypothesis =>
    have own : ∀ part ∈ stmt.child?, Mirrored alarm walk walk' part := fun part child =>
      parts part (List.mem_append_left _ (List.mem_filterMap.2 ⟨stmt, List.mem_cons_self, child⟩))
    refine Mirrors.thenLive ?_ fun _ => inductionHypothesis fun part member => parts part ?_
    · cases stmt with
      | bind pattern ty init span =>
        cases pattern with
        | ident name mutable =>
          have bound := fun value => tables.bindSlot (fun part member => (own part member).stored)
            name mutable ty value
          cases init with
          | none => exact .of_eq (bound none)
          | some init =>
            refine (own init rfl).expr.thenLive fun value => ?_
            rw [taken]
            split
            · exact .of_eq (bound (some value))
            · exact .refl _
        | wildcard =>
          cases init with
          | none => exact .refl _
          | some init => exact (own init rfl).expr.discard
        | tuple => exact .refl _
      | expr value => exact (own value rfl).expr.discard
      | semi value => exact (own value rfl).expr.discard
      | item span => exact .refl _
    · rcases List.mem_append.1 member with inside | last
      · obtain ⟨stmt', listed, child⟩ := List.mem_filterMap.1 inside
        exact List.mem_append_left _
          (List.mem_filterMap.2 ⟨stmt', List.mem_cons_of_mem _ listed, child⟩)
      · exact List.mem_append_right _ last

/-! ### One level -/

variable {expr : ExprId}
  (stored : Reordered walk.program.types (walk.program.arena.get? expr)
    (walk'.program.arena.get? expr))
  (parts : ∀ node, walk.program.arena.get? expr = some node → ∀ part ∈ node.kind.children,
    Mirrored alarm walk walk' part)

omit tables taken in
theorem node_of_found {walk : Walk} {node : Node} (found : walk.program.arena.get? expr = some node) :
    walk.node expr = pure node := by
  unfold Walk.node
  rw [found]

omit tables taken in
theorem node_of_missing {walk : Walk} (missing : walk.program.arena.get? expr = none) :
    walk.node expr = throw .malformedTree := by
  unfold Walk.node
  rw [missing]

include stored parts

/-- One level of an expression, lowered to its value. -/
theorem mirrors_node
    (home : ∀ node, walk.program.arena.get? expr = some node → node.kind.isPlace = true →
      Mirrors alarm (walk.place expr) (walk'.place expr)) :
    Mirrors alarm (lowerNode walk expr) (lowerNode walk' expr) := by
  refine (Mirrors.refl isLive).bind fun live => ?_
  cases live
  · exact .refl (pure Value.unreachable)
  rcases stored.same_or_structLit with same | ⟨inits, inits', span, ty, found, found', named, perm⟩
  · cases found : walk.program.arena.get? expr with
    | none =>
      rw [node_of_missing found, node_of_missing (same.trans found)]
      exact .refl (throw .malformedTree)
    | some node =>
    obtain ⟨kind, span, ty⟩ := node
    rw [node_of_found found, node_of_found (same.trans found), pure_bind, pure_bind]
    replace parts := parts _ found
    replace home := home _ found
    have exprs : ∀ part ∈ kind.children, Mirrors alarm (walk.expr part) (walk'.expr part) :=
      fun part member => (parts part member).expr
    have read : kind.isPlace = true → Mirrors alarm
        (thenLive .unreachable (walk.place expr) loadPlace)
        (thenLive .unreachable (walk'.place expr) loadPlace) := fun isPlace =>
      (home isPlace).thenLive fun _ => .refl _
    cases kind with
    | int value => exact .of_eq (tables.lowerInt value ty)
    | str text => exact .of_eq (congrArg stringLiteral (tables.text text))
    | path segments => exact .of_eq (tables.lowerPath segments span)
    | binary op left right =>
      exact mirrors_binary (exprs left (by simp [ExprKind.children]))
        (exprs right (by simp [ExprKind.children])) op span
    | unary op operand => exact (exprs operand List.mem_cons_self).thenLive fun _ => .refl _
    | assign target value =>
      exact mirrors_withTarget (parts target List.mem_cons_self).place span fun _ =>
        (exprs value (by simp [ExprKind.children])).thenLive fun _ => .refl _
    | compound op target value =>
      exact mirrors_withTarget (parts target List.mem_cons_self).place span fun _ =>
        (Mirrors.refl _).bind fun _ =>
          (exprs value (by simp [ExprKind.children])).thenLive fun _ => .refl _
    | borrow mutable operand => exact (parts operand List.mem_cons_self).place.thenLive fun _ => .refl _
    | cast operand => exact mirrors_cast tables (exprs operand List.mem_cons_self) ty span
    | deref operand => exact read rfl
    | field base field => exact read rfl
    | index base position => exact read rfl
    | block scope stmts tail => exact (mirrors_stmts tables taken parts).inScope
    | cond test thenArm elseArm =>
      exact mirrors_cond tables (exprs test List.mem_cons_self)
        (fun arm member => exprs arm (List.mem_cons_of_mem _ member)) ty span
    | whileLoop test body =>
      exact mirrors_while (exprs test List.mem_cons_self) (exprs body (by simp [ExprKind.children]))
        span
    | loop body => exact mirrors_loop (exprs body List.mem_cons_self) ty
    | returnWith value =>
      exact mirrors_return (fun part given => exprs part (Option.mem_toList.2 given)) span
    | call callee args =>
      exact mirrors_call tables (parts callee List.mem_cons_self).stored
        (fun arg member => exprs arg (List.mem_cons_of_mem _ member)) span
    | structLit inits =>
      exact mirrors_structLit tables
        (fun init member => exprs init.value (List.mem_map_of_mem member)) (fun _ => rfl)
        (fun _ _ => rfl) span
    | array elems => exact mirrors_array tables exprs ty span
    | _ => exact .refl _
  · rw [node_of_found found, node_of_found found']
    exact mirrors_structLit tables
      (fun init member => (parts _ found init.value (List.mem_map_of_mem member)).expr)
      (fun field => find?_of_perm FieldInit.name perm named.apart field)
      (fun definition known => named.find?_stray perm known) span

omit taken in
/-- One level of an expression, lowered to the address it denotes. -/
theorem mirrors_nodePlace
    (home : ∀ node, walk.program.arena.get? expr = some node → node.kind.isPlace = false →
      Mirrors alarm (walk.expr expr) (walk'.expr expr)) :
    Mirrors alarm (lowerNodePlace walk expr) (lowerNodePlace walk' expr) := by
  refine (Mirrors.refl isLive).bind fun live => ?_
  cases live
  · exact .refl (pure Place.unreachable)
  have spilled : ∀ node, walk.program.arena.get? expr = some node → node.kind.isPlace = false →
      Mirrors alarm (thenLive .unreachable (walk.expr expr) fun value => spill value none)
        (thenLive .unreachable (walk'.expr expr) fun value => spill value none) :=
    fun node found plain => (home node found plain).thenLive fun _ => .refl _
  rcases stored.same_or_structLit with same | ⟨inits, inits', span, ty, found, found', named, perm⟩
  · cases found : walk.program.arena.get? expr with
    | none =>
      rw [node_of_missing found, node_of_missing (same.trans found)]
      exact .refl (throw .malformedTree)
    | some node =>
    obtain ⟨kind, span, ty⟩ := node
    rw [node_of_found found, node_of_found (same.trans found), pure_bind, pure_bind]
    replace parts := parts _ found
    replace spilled := spilled _ found
    cases kind with
    | path segments => exact .of_eq (tables.pathPlace segments span)
    | deref operand => exact (parts operand List.mem_cons_self).expr.thenLive fun _ => .refl _
    | field base field =>
      exact mirrors_fieldPlace tables (parts base List.mem_cons_self) field span
    | index base position =>
      exact mirrors_elementPlace tables (parts base List.mem_cons_self)
        (parts position (by simp [ExprKind.children])).expr span
    | assign target value => exact .refl _
    | compound op target value => exact .refl _
    | whileLoop test body => exact .refl _
    | loop body => exact .refl _
    | breakLoop => exact .refl _
    | continueLoop => exact .refl _
    | returnWith value => exact .refl _
    | _ => exact spilled rfl
  · rw [node_of_found found, node_of_found found']
    exact spilled _ found rfl

end Constructs

section Through

variable {alarm : Error} {walk : Walk} {expr : ExprId → LowerM Value}
  {place : ExprId → LowerM Place}
  (exprs : ∀ part, Mirrors alarm (walk.expr part) (expr part))
  (places : ∀ part, Mirrors alarm (walk.place part) (place part))

include exprs places

/-- One level in one program whose parts are all mirrored, lowered to its value. -/
theorem mirrors_lowerNode (part : ExprId) :
    Mirrors alarm (lowerNode walk part) (lowerNode (walk.through expr place) part) :=
  have tables : walk.toSource.SameTables (walk.through expr place).toSource := .refl _
  mirrors_node tables (fun _ => rfl) (.same _)
    (fun _ _ part _ => ⟨.same _, exprs part, places part⟩) fun _ _ _ => places part

/-- One level in one program whose parts are all mirrored, lowered to the address it denotes. -/
theorem mirrors_lowerNodePlace (part : ExprId) :
    Mirrors alarm (lowerNodePlace walk part) (lowerNodePlace (walk.through expr place) part) :=
  have tables : walk.toSource.SameTables (walk.through expr place).toSource := .refl _
  mirrors_nodePlace tables (.same _)
    (fun _ _ part _ => ⟨.same _, exprs part, places part⟩) fun _ _ _ => exprs part

end Through

/-! ### Programs -/

section Programs

variable {alarm : Error} {lower lower' : List Name → ExprId → LowerM Value} (source : Source)
  (bodies : ∀ body, Mirrors alarm (lower (source.program.addressTaken body) body)
    (lower' (source.program.addressTaken body) body))

include bodies

theorem mirrors_function (decl : FunctionDecl) (func : FuncId) :
    Mirrors alarm (lowerFunctionBy lower source decl func)
      (lowerFunctionBy lower' source decl func) := by
  unfold lowerFunctionBy
  cases decl.body with
  | none => exact .refl _
  | some body =>
    refine (Mirrors.refl _).bind fun entry => (Mirrors.refl _).bind fun function => ?_
    refine (Mirrors.refl _).bind fun _ => Mirrors.inFunction (Mirrors.inScope ?_)
    exact (Mirrors.refl _).bind fun _ => (bodies body).thenLive fun _ => .refl _

theorem mirrors_items : Mirrors alarm (lowerItemsBy lower source) (lowerItemsBy lower' source) :=
  (Mirrors.refl _).bind fun _ => (Mirrors.refl _).bind fun _ =>
    Mirrors.forM fun pair => mirrors_function source bodies pair.1 pair.2

end Programs

end TreeLowering.Lowering
