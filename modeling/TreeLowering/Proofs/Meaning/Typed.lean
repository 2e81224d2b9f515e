/-
This file says which bodies are well typed, among those that can be evaluated. Every expression
carries its type, so typing is a check of each expression against its parts. An expression of type
never ends with no value; it may stand where a value of any type is expected, and an expression that
cannot end without it may carry any type.
-/

import TreeLowering.Proofs.Meaning.Evaluate

namespace TreeLowering.Tree

open TreeLowering.Ir

/-- The types of the variables. -/
abbrev Variables := Scopes Prim

/-- Whether the value of a variable has its type. -/
def HasPrim (prim : Prim) (content : Option Scalar) : Prop :=
  ∀ scalar, content = some scalar → scalar.prim = prim ∧ prim ≠ .never

/-- Whether a value of type `found` may stand where one of type `wanted` is expected. -/
def accepts (wanted found : Prim) : Bool := found == wanted || found == .never

/-- The type of the result of an operator for operands of type `prim`. -/
def BinaryOp.resultPrim (op : BinaryOp) (prim : Prim) : Prim :=
  if op.isComparison then .bool else prim

theorem BinaryOp.resultPrim_inhabited (op : BinaryOp) {prim : Prim} (inhabited : prim ≠ .never) :
    op.resultPrim prim ≠ .never := by
  unfold resultPrim
  split_ifs
  · decide
  · exact inhabited

namespace Program

/-- The type an expression carries. -/
def typeOf? (program : Program) (expr : ExprId) : Option Prim :=
  (program.arena.get? expr).bind fun node => program.prim? node.ty

/-- Whether an expression carries the type never. -/
def diverges (program : Program) (expr : ExprId) : Bool := program.typeOf? expr == some .never

/-- Whether an expression may stand where a value of type `wanted` is expected. -/
def suits (program : Program) (wanted : Prim) (expr : ExprId) : Bool :=
  (program.typeOf? expr).any (accepts wanted)

/-- How a part is checked: whether the loop around it may be left, the types of the variables,
and the part. -/
abbrev Check := Bool → Variables → ExprId → Bool

section Check

variable (program : Program) (check : Check) (leaves : Bool)

/-- The type of a variable: the declared one, or that of the initialiser when it was left open. -/
def bindingPrim? (ty : TypeId) (init : Option ExprId) : Option Prim :=
  if ty = .infer then init.bind program.typeOf? else program.prim? ty

/-- Checks a statement; yields the types of the variables after it, and whether it ends with no value. -/
def checkStmt (prims : Variables) : Stmt → Option (Variables × Bool)
  | .bind (.ident name _) ty none _ =>
    (program.bindingPrim? ty none).map fun prim => (prims.bind name prim, false)
  | .bind (.ident name _) ty (some init) _ => do
    let prim ← program.bindingPrim? ty (some init)
    guard (check leaves prims init && program.suits prim init)
    return (prims.bind name prim, program.diverges init)
  | .bind .wildcard _ none _ => some (prims, false)
  | .bind .wildcard _ (some value) _ | .expr value | .semi value =>
    if check leaves prims value then some (prims, program.diverges value) else none
  | .bind .tuple .. | .item _ => none

/-- Checks statements and the tail behind them, against the type that is expected if there is one. -/
def checkStmts : Variables → List Stmt → (tail : Option ExprId) → (wanted : Option Prim) → Bool
  | prims, [], some tail, wanted =>
    check leaves prims tail && wanted.all fun prim => program.suits prim tail
  | _, [], none, wanted => wanted.all (· == .unit)
  | prims, stmt :: rest, tail, wanted =>
    match program.checkStmt check leaves prims stmt with
    | none => false
    | some (prims, diverges) =>
      checkStmts prims rest tail (if diverges then none else wanted)

/-- Checks an operator that evaluates both operands. -/
def checkEager (prims : Variables) (op : BinaryOp) (left right : ExprId) (prim : Prim) : Bool :=
  check leaves prims left && check leaves prims right &&
    (program.diverges left || program.diverges right ||
      (program.typeOf? left).any fun operand => !operand.isVoid &&
        program.typeOf? right == some operand && prim == op.resultPrim operand)

/-- Checks a condition. -/
def checkTest (prims : Variables) (test : ExprId) : Bool :=
  check leaves prims test && program.suits .bool test

/-- Checks an expression that carries the type `prim`, given how its parts are checked. A loop of
type never must not be left. -/
def checkNode (ret : Prim) (prims : Variables) (node : Node) (prim : Prim) : Bool :=
  match node.kind with
  | .int _ => prim.isInteger
  | .bool _ => prim == .bool
  | .unit => prim == .unit
  | .path [name] => prims.resolve? name == some prim
  | .binary op left right =>
    if op.isShortCircuit then
      program.checkTest check leaves prims left &&
        program.checkTest check leaves prims right && (program.diverges left || prim == .bool)
    else program.checkEager check leaves prims op left right prim
  | .unary _ operand => check leaves prims operand && program.suits prim operand
  | .assign target value =>
    ((program.assignee? target).bind prims.resolve?).any fun wanted =>
      check leaves prims value && program.suits wanted value &&
        (program.diverges value || prim == .unit)
  | .compound op target value =>
    ((program.assignee? target).bind prims.resolve?).any fun wanted =>
      check leaves prims value && program.suits wanted value &&
        (program.diverges value || op.resultPrim wanted == wanted && prim == .unit)
  | .block _ stmts tail => program.checkStmts check leaves ([] :: prims) stmts tail (some prim)
  | .cond test thenArm none =>
    program.checkTest check leaves prims test && check leaves prims thenArm &&
      (program.diverges test || prim == .unit)
  | .cond test thenArm (some elseArm) =>
    program.checkTest check leaves prims test && check leaves prims thenArm &&
      check leaves prims elseArm &&
      (program.diverges test || program.suits prim thenArm && program.suits prim elseArm)
  | .whileLoop test body =>
    program.checkTest check leaves prims test && check true prims body &&
      (program.diverges test || prim == .unit)
  | .loop body => check (node.ty != .never) prims body && (node.ty == .never || prim == .unit)
  | .breakLoop => leaves
  | .continueLoop => true
  | .returnWith none => ret == .unit
  | .returnWith (some value) => check leaves prims value && program.suits ret value
  | _ => false

end Check

/-- Checks an expression of a function that returns `ret`, through at most `depth` levels. -/
def wellTyped (program : Program) (ret : Prim) : (depth : Nat) → Check
  | 0, _, _, _ => false
  | depth + 1, leaves, prims, expr =>
    match program.arena.get? expr with
    | none => false
    | some node =>
      (program.prim? node.ty).any
        (program.checkNode (program.wellTyped ret depth) leaves ret prims node)

/-- The types of the parameters of a function. -/
def paramPrims? (program : Program) (decl : FunctionDecl) : Option (List Prim) :=
  decl.params.mapM fun param => program.prim? param.ty

/-- Checks a function: its parameters have values, and its body yields what it returns. -/
def wellTypedFunction (program : Program) (decl : FunctionDecl) (depth : Nat) : Bool :=
  match program.prim? decl.ret, program.paramPrims? decl, decl.body with
  | some ret, some prims, some body =>
    prims.all (· != .never) && program.suits ret body &&
      program.wellTyped ret depth false (.bindAll ((decl.params.map Param.name).zip prims) [[]]) body
  | _, _, _ => false

/-! ### Inversion -/

variable {program : Program} {ret : Prim} {depth : Nat} {leaves : Bool} {prims : Variables}
  {expr : ExprId}

/-- A well-typed expression has a type, and its parts are as the type asks. -/
theorem wellTyped_cases (typed : program.wellTyped ret depth leaves prims expr = true) :
    ∃ depth' node prim, program.arena.get? expr = some node ∧ program.prim? node.ty = some prim ∧
      program.typeOf? expr = some prim ∧
      program.checkNode (program.wellTyped ret depth') leaves ret prims node prim = true := by
  cases depth with
  | zero => cases typed
  | succ depth =>
    unfold wellTyped at typed
    cases found : program.arena.get? expr with
    | none =>
      rw [found] at typed
      cases typed
    | some node =>
      rw [found] at typed
      obtain ⟨prim, known, checked⟩ := (Option.any_eq_true _ _).1 typed
      refine ⟨depth, node, prim, rfl, known, ?_, checked⟩
      rw [typeOf?, found, Option.bind_some, known]

/-- What stands in a place where a value of type `wanted` is expected has that type, if it has a
value. -/
theorem prim_of_suits {wanted prim : Prim} (suits : program.suits wanted expr = true)
    (typed : program.typeOf? expr = some prim) (inhabited : prim ≠ .never) : prim = wanted := by
  rw [Program.suits, typed, Option.any_some, accepts, Bool.or_eq_true] at suits
  exact eq_of_beq (suits.resolve_right fun never => inhabited (eq_of_beq never))

theorem not_diverges {prim : Prim} (typed : program.typeOf? expr = some prim)
    (inhabited : prim ≠ .never) : ¬ program.diverges expr = true := by
  rw [diverges, typed, beq_iff_eq, Option.some.injEq]
  exact inhabited

theorem checkStmt_init {check : Check} {mutable diverges : Bool} {prims' : Variables} {name : Name}
    {ty : TypeId} {init : ExprId} {span : Span}
    (checked : program.checkStmt check leaves prims (.bind (.ident name mutable) ty (some init) span) =
      some (prims', diverges)) :
    ∃ prim, program.bindingPrim? ty (some init) = some prim ∧ check leaves prims init = true ∧
      program.suits prim init = true ∧ prims' = prims.bind name prim ∧
        diverges = program.diverges init := by
  obtain ⟨prim, typed, rest⟩ := Option.bind_eq_some_iff.1 checked
  obtain ⟨_, guarded, ended⟩ := Option.bind_eq_some_iff.1 rest
  unfold guard at guarded
  split_ifs at guarded with holds
  rw [Bool.and_eq_true] at holds
  cases ended
  exact ⟨prim, typed, holds.1, holds.2, rfl, rfl⟩

theorem checkEager_cases {check : Check} {op : BinaryOp} {left right : ExprId} {prim : Prim}
    (checked : program.checkEager check leaves prims op left right prim = true) :
    check leaves prims left = true ∧ check leaves prims right = true ∧
      ∀ operand, program.typeOf? left = some operand → operand ≠ .never →
        ¬ program.diverges right = true → op.resultPrim operand = prim := by
  simp only [checkEager, Bool.and_eq_true, Bool.or_eq_true] at checked
  obtain ⟨⟨typedLeft, typedRight⟩, agrees⟩ := checked
  refine ⟨typedLeft, typedRight, fun operand carries inhabited converges => ?_⟩
  have same := (agrees.resolve_left fun diverges =>
    diverges.elim (not_diverges carries inhabited) converges)
  rw [carries, Option.any_some, Bool.and_eq_true, beq_iff_eq] at same
  exact same.2.symm

end Program

end TreeLowering.Tree
