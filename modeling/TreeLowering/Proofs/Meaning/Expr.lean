/-
This file proves that every well-typed expression is lowered faithfully: the code that is added for it
does what its evaluation says, whatever the expression is made of. The lowering of an expression goes
through the levels of its tree, and each level relies on the one below.
-/

import TreeLowering.Proofs.Flow.Expr
import TreeLowering.Proofs.Meaning.Block
import TreeLowering.Proofs.Meaning.Loop

namespace TreeLowering.Lowering

open TreeLowering.Ir TreeLowering.Tree Builder

section Expr

variable {source : Source} {site : Site} {context : Context} {walk : Walk} {prim : Prim} {depth : Nat}
  {expr : ExprId} {span : Span}

/-! ### Jumps and returns -/

theorem Stands.lowerLoopJump (stands : Stands source site context) (jump : LoopJump) (span : Span)
    (allowed : jump = .leave → site.leaves = true) :
    Ensures (lowerLoopJump jump span) context
      (Means source site context.builder (fun _ => .ends (.jump jump)) prim) := by
  obtain ⟨id, here⟩ := stands.live
  unfold Lowering.lowerLoopJump
  rw [ensures_bind, ensures_get, stands.env]
  split
  · next target found =>
    refine stands.gives.close here fun later closes gives => ?_
    refine ⟨gives, .of_constant rfl rfl, fun run grown _ => ?_⟩
    intro locals outcome locals' evaluated id' previous state here' holds _
    cases here.symm.trans here'
    obtain ⟨rfl, rfl⟩ := Evaluation.ends_eq_some evaluated
    refine ⟨allowed, fun target' found' => ?_⟩
    cases found.symm.trans found'
    exact ⟨some id, state, Run.reaches_jump closes.toExits grown (stands.bound.inner jump _ found),
      .refl _ _ _ _, holds⟩
  · rfl

theorem Stands.lowerReturn {value : Option ExprId} {ty : TypeId}
    (stands : Stands walk.toSource site context) (faithful : walk.Faithful)
    (checked : walk.program.checkNode (walk.program.wellTyped site.ret depth) site.leaves site.ret
      site.prims ⟨.returnWith value, span, ty⟩ prim = true) :
    Ensures (lowerReturn walk value span) context (Means walk.toSource site context.builder
      (fun fuel => walk.program.evaluateNode (walk.program.evaluate fuel) expr
        ⟨.returnWith value, span, ty⟩) prim) := by
  unfold Lowering.lowerReturn
  rw [ensures_bind, ensures_get, stands.env, stands.bound.returns]
  cases value with
  | none =>
    obtain ⟨id, here⟩ := stands.live
    have unit : site.ret = .unit := eq_of_beq checked
    refine stands.gives.close here fun later closes gives => ?_
    refine ⟨gives, .of_constant rfl rfl, fun run grown _ => ?_⟩
    intro locals outcome locals' evaluated id' previous state here' holds _
    cases here.symm.trans here'
    obtain ⟨rfl, rfl⟩ := Evaluation.ends_eq_some evaluated
    exact ⟨unit.symm, Run.finishes_nothing closes.toExits grown⟩
  | some value =>
    simp only [Program.checkNode, Bool.and_eq_true] at checked
    obtain ⟨typed, suits⟩ := checked
    obtain ⟨_, _, carried, _, _, carries, _⟩ := Program.wellTyped_cases typed
    refine stands.afterValue faithful typed carries fun operand second known stands₂ => ?_
    obtain ⟨id, here⟩ := stands₂.live
    unfold returnValue
    refine stands₂.gives.close here fun later closes gives => ?_
    refine ⟨gives, .of_constant rfl rfl, fun run grown fuel scalar same inhabited => ?_⟩
    obtain rfl := Program.prim_of_suits suits carries inhabited
    intro locals outcome locals' evaluated id' previous state here' holds shows
    cases here.symm.trans here'
    obtain ⟨rfl, rfl⟩ := Evaluation.ends_eq_some evaluated
    exact ⟨same, Run.finishes_scalar closes.toExits grown same shows⟩

/-! ### Expressions -/

theorem Stands.lowerBinary {op : BinaryOp} {left right : ExprId} {ty : TypeId}
    (stands : Stands walk.toSource site context) (faithful : walk.Faithful)
    (checked : walk.program.checkNode (walk.program.wellTyped site.ret depth) site.leaves site.ret
      site.prims ⟨.binary op left right, span, ty⟩ prim = true) :
    Ensures (lowerBinary walk op left right span) context (Means walk.toSource site context.builder
      (fun fuel => evaluateBinary (walk.program.evaluate fuel) op left right) prim) := by
  unfold Lowering.lowerBinary
  simp only [Program.checkNode] at checked
  cases short : op.isShortCircuit with
  | false =>
    rw [short, if_neg Bool.false_ne_true] at checked
    rw [if_neg Bool.false_ne_true]
    exact stands.lowerEager faithful left right span short checked
  | true =>
    rw [short, if_pos rfl, Bool.and_eq_true, Bool.and_eq_true, Bool.or_eq_true, beq_iff_eq] at checked
    obtain ⟨⟨typed, typed'⟩, truth⟩ := checked
    rw [if_pos rfl]
    have lowered := stands.lowerShortCircuit faithful (op == .and) span typed typed' truth
    cases op with
    | and => exact lowered
    | or => exact lowered
    | _ => cases short

theorem Stands.whenLive {α : Type} {dead : α} {action : LowerM α} {post : α → Context → Prop}
    (stands : Stands source site context) (ensured : Ensures action context post) :
    Ensures (do if !(← isLive) then return dead else action) context post := by
  obtain ⟨id, here⟩ := stands.live
  obtain ⟨cursor, positioned, _⟩ := Option.map_eq_some_iff.1 here
  rw [ensures_bind, ensures_isLive, positioned]
  exact ensured

theorem Stands.lowerNode (stands : Stands walk.toSource site context) (faithful : walk.Faithful)
    (typed : walk.program.wellTyped site.ret depth site.leaves site.prims expr = true)
    (carries : walk.program.typeOf? expr = some prim) :
    Ensures (lowerNode walk expr) context (Means walk.toSource site context.builder
      (fun fuel => walk.program.evaluate (fuel + 1) expr) prim) := by
  obtain ⟨depth, node, prim', found, known, same, checked⟩ := Program.wellTyped_cases typed
  cases carries.symm.trans same
  refine stands.whenLive ?_
  rw [ensures_bind, Walk.node, found, ensures_pure]
  obtain ⟨kind, span, ty⟩ := node
  have meaning : ∀ fuel, walk.program.evaluate (fuel + 1) expr =
      walk.program.evaluateNode (walk.program.evaluate fuel) expr ⟨kind, span, ty⟩ := by
    intro fuel
    rw [Program.evaluate, found]
  have integer : walk.program.prim? ty = some prim := known
  cases kind with
  | whileLoop test body => exact stands.lowerWhile faithful found checked
  | loop body => exact stands.lowerLoop faithful found checked
  | int value =>
    simp only [meaning, Program.evaluateNode, integer]
    exact stands.lowerInt value integer checked
  | bool value =>
    simp only [meaning, Program.evaluateNode]
    obtain rfl : prim = .bool := eq_of_beq checked
    exact stands.constant rfl rfl (fun _ _ => rfl) rfl (by decide)
  | unit =>
    simp only [meaning, Program.evaluateNode]
    obtain rfl : prim = .unit := eq_of_beq checked
    exact stands.unit
  | path segments =>
    cases segments with
    | nil => cases checked
    | cons name rest =>
      cases rest with
      | nil =>
        simp only [meaning, Program.evaluateNode]
        exact stands.lowerPath span (eq_of_beq checked)
      | cons _ _ => cases checked
  | binary op left right =>
    simp only [meaning, Program.evaluateNode]
    exact stands.lowerBinary faithful checked
  | unary op operand =>
    simp only [meaning, Program.evaluateNode]
    simp only [Program.checkNode, Bool.and_eq_true] at checked
    exact stands.lowerUnary faithful op operand checked.1 checked.2
  | assign target value =>
    simp only [Program.checkNode] at checked
    obtain ⟨wanted, resolved, checked⟩ := (Option.any_eq_true _ _).1 checked
    obtain ⟨name, assigned, typed⟩ := Option.bind_eq_some_iff.1 resolved
    simp only [Bool.and_eq_true, Bool.or_eq_true, beq_iff_eq] at checked
    simp only [meaning, Program.evaluateNode, assigned]
    exact stands.lowerAssign faithful assigned typed checked.1.1 checked.1.2 checked.2
  | compound op target value =>
    simp only [Program.checkNode] at checked
    obtain ⟨wanted, resolved, checked⟩ := (Option.any_eq_true _ _).1 checked
    obtain ⟨name, assigned, typed⟩ := Option.bind_eq_some_iff.1 resolved
    simp only [Bool.and_eq_true, Bool.or_eq_true, beq_iff_eq] at checked
    simp only [meaning, Program.evaluateNode, assigned]
    exact stands.lowerCompound faithful assigned typed checked.1.1 checked.2
  | block scope stmts tail =>
    simp only [meaning, Program.evaluateNode]
    exact stands.lowerBlock faithful scope checked
  | cond test thenArm elseArm =>
    simp only [meaning]
    exact stands.lowerCond faithful integer checked
  | breakLoop =>
    simp only [meaning, Program.evaluateNode]
    exact stands.lowerLoopJump .leave span fun _ => checked
  | continueLoop =>
    simp only [meaning, Program.evaluateNode]
    exact stands.lowerLoopJump .again span fun again => by cases again
  | returnWith value =>
    simp only [meaning]
    exact stands.lowerReturn faithful checked
  | _ => cases checked

/-- The variable that is assigned to has a place. -/
theorem Stands.lowerNodePlace {target : ExprId} {name : Name}
    (stands : Stands walk.toSource site context)
    (assigned : walk.program.assignee? target = some name)
    (typed : site.prims.resolve? name = some prim) :
    Ensures (lowerNodePlace walk target) context fun place after =>
      (∃ id, after.builder.here? = some id) ∧ (place.mutable = true →
        after = context ∧ site.env.resolve? name = some (.slot place.address place.ty true)) := by
  unfold Program.assignee? at assigned
  split at assigned
  · next found name' span ty same =>
    cases assigned
    refine stands.whenLive ?_
    rw [ensures_bind, Walk.node, same, ensures_pure]
    exact stands.pathPlace span typed
  · cases assigned

end Expr

/-- Without fuel there is nothing to follow. -/
theorem Means.of_succ {source : Source} {site : Site} {now : Builder} {after : Context} {prim : Prim}
    {value : Value} {program : Program} {expr : ExprId}
    (means : Means source site now (fun fuel => program.evaluate (fuel + 1) expr) prim value after) :
    Means source site now (fun fuel => program.evaluate fuel expr) prim value after := by
  refine ⟨means.toGives, means.known, fun run grown fuel => ?_⟩
  cases fuel with
  | zero =>
    intro locals outcome locals' evaluated
    cases evaluated
  | succ fuel => exact means.runs run grown fuel

/-- At every depth of a tree, its expressions are lowered faithfully. -/
theorem within_faithful (source : Source) (taken : List Name) (fuel : Nat) :
    Walk.Faithful ⟨source, taken, lowerWithin source taken fuel, placeWithin source taken fuel⟩ := by
  induction fuel with
  | zero => exact ⟨fun _ _ _ => rfl, fun _ _ _ => rfl⟩
  | succ fuel inductionHypothesis =>
    let walk : Walk := ⟨source, taken, lowerWithin source taken fuel, placeWithin source taken fuel⟩
    have faithful : walk.Faithful := inductionHypothesis
    refine ⟨fun {site context part prim depth} stands typed carries => ?_,
      fun {site context target name prim} stands assigned typed => ?_⟩
    · exact (@Stands.lowerNode site context walk prim depth part stands faithful typed carries).mono
        fun _ _ => Means.of_succ
    · exact @Stands.lowerNodePlace site context walk prim target name stands assigned typed

theorem Stands.lowerExpr {source : Source} {site : Site} {context : Context} {expr : ExprId}
    {prim : Prim} {depth : Nat} (stands : Stands source site context) (taken : List Name)
    (typed : source.program.wellTyped site.ret depth site.leaves site.prims expr = true)
    (carries : source.program.typeOf? expr = some prim) :
    Ensures (lowerExpr source taken expr) context (Means source site context.builder
      (fun fuel => source.program.evaluate fuel expr) prim) :=
  (within_faithful source taken source.exprDepth).expr stands typed carries

end TreeLowering.Lowering
