/-
This file says what a body means, by running its tree. It covers the part of the language in which
every value is a scalar: literals, local variables, operators, assignments, blocks, conditionals,
loops and jumps. Parts are evaluated from left to right, and a compound assignment reads its target
first. Evaluation is stuck where the language gives no meaning, such as at a variable that has not
been assigned yet, and also at everything outside of this part.
-/

import TreeLowering.Proofs.Meaning.Scalar

namespace TreeLowering.Tree

open TreeLowering.Ir TreeLowering.Lowering

/-! ### Scopes -/

/-- What names stand for, scope by scope with the innermost first. -/
abbrev Scopes (α : Type) := List (List (Name × α))

namespace Scopes

variable {α : Type}

/-- What the nearest scope that has the name says. -/
def resolve? (scopes : Scopes α) (name : Name) : Option α :=
  scopes.findSome? fun scope => scope.lookup name

/-- Adds a name to the innermost scope. -/
def bind (scopes : Scopes α) (name : Name) (item : α) : Scopes α :=
  match scopes with
  | [] => [[(name, item)]]
  | scope :: outer => ((name, item) :: scope) :: outer

/-- Replaces what a name stands for where it was bound last. -/
def setIn (name : Name) (item : α) : List (Name × α) → List (Name × α)
  | [] => []
  | entry :: rest =>
    if entry.1 = name then (name, item) :: rest else entry :: setIn name item rest

/-- Replaces what a name stands for in the nearest scope that has it. -/
def set (name : Name) (item : α) : Scopes α → Scopes α
  | [] => []
  | scope :: outer =>
    if (scope.lookup name).isSome then setIn name item scope :: outer
    else scope :: set name item outer

/-- Adds names one after the other. -/
def bindAll (entries : List (Name × α)) (scopes : Scopes α) : Scopes α :=
  entries.foldl (fun scopes entry => scopes.bind entry.1 entry.2) scopes

end Scopes

/-- The local variables and their values; a variable without a value was not assigned yet. -/
abbrev Locals := Scopes (Option Scalar)

/-! ### Evaluations -/

/-- How an evaluation ends: with a value, with a jump to an edge of the loop around it, or with the
result of the function. -/
inductive Outcome where
  | value (scalar : Scalar)
  | jump (jump : LoopJump)
  | result (scalar : Scalar)
deriving DecidableEq

/-- A computation that changes local variables, and may be stuck. -/
abbrev Evaluation := Locals → Option (Outcome × Locals)

namespace Evaluation

def ends (outcome : Outcome) : Evaluation := fun locals => some (outcome, locals)

def stuck : Evaluation := fun _ => none

/-- Ends with a value if there is one. -/
def given (scalar : Option Scalar) : Evaluation := fun locals =>
  scalar.map fun found => (.value found, locals)

/-- Goes on with the value of the first evaluation, if it ends with one. -/
def andThen (first : Evaluation) (next : Scalar → Evaluation) : Evaluation := fun locals =>
  match first locals with
  | some (.value scalar, locals) => next scalar locals
  | ended => ended

/-- Evaluates in a new scope, which is dropped however the evaluation ends. -/
def inScope (inner : Evaluation) : Evaluation := fun locals =>
  (inner ([] :: locals)).map fun (outcome, locals) => (outcome, locals.tail)

/-- Evaluates the body of a loop and then the loop again, unless the body leaves the loop. -/
def andAgain (body loop : Evaluation) : Evaluation := fun locals =>
  match body locals with
  | some (.value _, locals) => loop locals
  | some (.jump .again, locals) => loop locals
  | some (.jump .leave, locals) => some (.value .unit, locals)
  | ended => ended

/-- Chooses by a truth value. -/
def choose (test : Scalar) (thenArm elseArm : Evaluation) : Evaluation :=
  if test = .bool true then thenArm else if test = .bool false then elseArm else stuck

/-- Reads a variable. -/
def read (name : Name) : Evaluation := fun locals =>
  given ((locals.resolve? name).bind id) locals

/-- Assigns to a variable. -/
def write (name : Name) (scalar : Scalar) : Evaluation := fun locals =>
  if (locals.resolve? name).isSome then some (.value .unit, locals.set name (some scalar))
  else none

/-- Binds a new variable. -/
def declare (name : Name) (content : Option Scalar) : Evaluation := fun locals =>
  some (.value .unit, locals.bind name content)

end Evaluation

open Evaluation

/-! ### Constructs -/

/-- The primitive type of a shape; characters are no part of the language here. -/
def TypeKind.prim? : TypeKind → Option Prim
  | bool => some .bool
  | i32 => some .i32
  | u32 => some .u32
  | isize => some .isize
  | usize => some .usize
  | u8 => some .u8
  | unit => some .unit
  | never => some .never
  | _ => none

def Program.prim? (program : Program) (ty : TypeId) : Option Prim :=
  (program.types.kind ty).prim?

/-- The variable that an assignment assigns to. -/
def Program.assignee? (program : Program) (target : ExprId) : Option Name :=
  match program.arena.get? target with
  | some ⟨.path [name], _, _⟩ => some name
  | _ => none

def evaluateStmt (part : ExprId → Evaluation) : Stmt → Evaluation
  | .bind (.ident name _) _ none _ => declare name none
  | .bind (.ident name _) _ (some init) _ => (part init).andThen fun scalar => declare name scalar
  | .bind .wildcard _ none _ => ends (.value .unit)
  | .bind .wildcard _ (some init) _ => part init
  | .expr value => part value
  | .semi value => part value
  | .bind .tuple .. | .item _ => stuck

/-- Statements in order, then the tail. -/
def evaluateStmts (part : ExprId → Evaluation) : List Stmt → (tail : Option ExprId) → Evaluation
  | [], some tail => part tail
  | [], none => ends (.value .unit)
  | stmt :: rest, tail => (evaluateStmt part stmt).andThen fun _ => evaluateStmts part rest tail

/-- The right operand of a short-circuit operator is evaluated only if the left one leaves the result
open. -/
def evaluateBinary (part : ExprId → Evaluation) (op : BinaryOp) (left right : ExprId) :
    Evaluation :=
  (part left).andThen fun first =>
    match op with
    | .and => choose first (part right) (ends (.value first))
    | .or => choose first (ends (.value first)) (part right)
    | _ => (part right).andThen fun second => given (first.binary? op second)

/-- Evaluates an expression, given how its parts are evaluated. A loop is a part of itself. -/
def Program.evaluateNode (program : Program) (part : ExprId → Evaluation) (expr : ExprId)
    (node : Node) : Evaluation :=
  match node.kind with
  | .int value => given ((program.prim? node.ty).map fun prim => .ofInt prim value.toNat)
  | .bool value => ends (.value (.bool value))
  | .unit => ends (.value .unit)
  | .path [name] => read name
  | .binary op left right => evaluateBinary part op left right
  | .unary op operand => (part operand).andThen fun scalar => ends (.value (scalar.unary op))
  | .assign target value =>
    match program.assignee? target with
    | some name => (part value).andThen fun scalar => write name scalar
    | none => stuck
  | .compound op target value =>
    match program.assignee? target with
    | some name =>
      (read name).andThen fun current =>
        (part value).andThen fun scalar =>
          (given (current.binary? op scalar)).andThen fun combined => write name combined
    | none => stuck
  | .block _ stmts tail => inScope (evaluateStmts part stmts tail)
  | .cond test thenArm none =>
    (part test).andThen fun truth =>
      choose truth ((part thenArm).andThen fun _ => ends (.value .unit)) (ends (.value .unit))
  | .cond test thenArm (some elseArm) =>
    (part test).andThen fun truth => choose truth (part thenArm) (part elseArm)
  | .whileLoop test body =>
    (part test).andThen fun truth =>
      choose truth ((part body).andAgain (part expr)) (ends (.value .unit))
  | .loop body => (part body).andAgain (part expr)
  | .breakLoop => ends (.jump .leave)
  | .continueLoop => ends (.jump .again)
  | .returnWith none => ends (.result .unit)
  | .returnWith (some value) => (part value).andThen fun scalar => ends (.result scalar)
  | _ => stuck

/-- Evaluates an expression in at most `fuel` levels, where each round of a loop is one level. -/
def Program.evaluate (program : Program) : (fuel : Nat) → ExprId → Evaluation
  | 0, _ => stuck
  | fuel + 1, expr =>
    match program.arena.get? expr with
    | some node => program.evaluateNode (program.evaluate fuel) expr node
    | none => stuck

/-- The variables a function starts with. -/
def FunctionDecl.locals (decl : FunctionDecl) (args : List Scalar) : Locals :=
  Scopes.bindAll ((decl.params.map Param.name).zip (args.map some)) [[]]

/-- What a function returns. -/
def Program.call? (program : Program) (decl : FunctionDecl) (args : List Scalar) (fuel : Nat) :
    Option Scalar :=
  match decl.body with
  | none => none
  | some body =>
    match program.evaluate fuel body (decl.locals args) with
    | some (.value scalar, _) => some scalar
    | some (.result scalar, _) => some scalar
    | _ => none

end TreeLowering.Tree
