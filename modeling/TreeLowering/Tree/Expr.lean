/-
This file defines resolved expressions and the arena that holds them. An expression refers to its
parts by position, so one node may be shared and the arena may hold any shape; `ExprKind.children`
lists the parts of a node, and every traversal of a body follows it. Parts that may be missing (an
else arm, a tail, the value of a return) are optional.
-/

import TreeLowering.Tree.Operator
import TreeLowering.Tree.Scope
import TreeLowering.Tree.Span

namespace TreeLowering.Tree

/-- An expression: its position in an `Arena`. -/
structure ExprId where
  index : Nat
deriving DecidableEq, Repr, Inhabited

/-- The left side of a `let`. -/
inductive Pattern where
  | ident (name : Name) (mutable : Bool)
  | wildcard
  /-- Destructuring, which lowering does not accept. -/
  | tuple
deriving DecidableEq, Repr, Inhabited

/-- A statement of a block. -/
inductive Stmt where
  | bind (pattern : Pattern) (ty : TypeId) (init : Option ExprId) (span : Span)
  /-- An expression statement without a closing semicolon. -/
  | expr (value : ExprId)
  /-- An expression statement with a closing semicolon. -/
  | semi (value : ExprId)
  /-- A nested item, which lowering does not accept. -/
  | item (span : Span)
deriving DecidableEq, Repr, Inhabited

/-- The expression a statement evaluates, if any. -/
def Stmt.child? : Stmt → Option ExprId
  | bind _ _ init _ => init
  | expr value => some value
  | semi value => some value
  | item _ => none

/-- One `name: value` entry of a struct literal. -/
structure FieldInit where
  name : Name
  value : ExprId
  span : Span
deriving DecidableEq, Repr, Inhabited

/-- The shape of an expression. -/
inductive ExprKind where
  | int (value : UInt64)
  | bool (value : Bool)
  | char (value : Char)
  | str (text : Name)
  | unit
  /-- A path of one or more names; lowering accepts one name only. -/
  | path (segments : List Name)
  | binary (op : BinaryOp) (left right : ExprId)
  | unary (op : UnaryOp) (operand : ExprId)
  | assign (target value : ExprId)
  /-- `target op= value`. -/
  | compound (op : BinaryOp) (target value : ExprId)
  | borrow (mutable : Bool) (operand : ExprId)
  | deref (operand : ExprId)
  /-- A conversion to the type of the node itself. -/
  | cast (operand : ExprId)
  | block (scope : ScopeId) (stmts : List Stmt) (tail : Option ExprId)
  | cond (test thenArm : ExprId) (elseArm : Option ExprId)
  | whileLoop (test body : ExprId)
  | loop (body : ExprId)
  | breakLoop
  | continueLoop
  | returnWith (value : Option ExprId)
  | call (callee : ExprId) (args : List ExprId)
  | methodCall (receiver : ExprId) (method : Name) (args : List ExprId)
  /-- A struct literal; the struct is the type of the node itself. -/
  | structLit (inits : List FieldInit)
  | field (base : ExprId) (name : Name)
  | index (base position : ExprId)
  | array (elems : List ExprId)
  | tuple (elems : List ExprId)
  | select (scrutinee : ExprId)
deriving DecidableEq, Repr, Inhabited

namespace ExprKind

/-- What a diagnostic calls an expression of this shape. -/
def describe : ExprKind → String
  | int _ => "integer literal"
  | bool _ => "boolean literal"
  | char _ => "char literal"
  | str _ => "string literal"
  | unit => "unit literal"
  | path _ => "path"
  | binary .. => "binary expression"
  | unary .. => "unary expression"
  | assign .. => "assignment"
  | compound .. => "compound assignment"
  | borrow .. => "borrow"
  | deref _ => "dereference"
  | cast _ => "cast"
  | block .. => "block"
  | cond .. => "if expression"
  | whileLoop .. => "while loop"
  | loop _ => "loop"
  | breakLoop => "break"
  | continueLoop => "continue"
  | returnWith _ => "return"
  | call .. => "call"
  | methodCall .. => "method call"
  | structLit _ => "struct literal"
  | field .. => "field access"
  | index .. => "index expression"
  | array _ => "array literal"
  | tuple _ => "tuple"
  | select _ => "match expression"

/-- The direct parts of an expression, in the order they are written. -/
def children : ExprKind → List ExprId
  | int _ | bool _ | char _ | str _ | unit | path _ | breakLoop | continueLoop => []
  | binary _ left right => [left, right]
  | unary _ operand | borrow _ operand | deref operand | cast operand => [operand]
  | assign target value | compound _ target value => [target, value]
  | block _ stmts tail => stmts.filterMap Stmt.child? ++ tail.toList
  | cond test thenArm elseArm => test :: thenArm :: elseArm.toList
  | whileLoop test body => [test, body]
  | loop body => [body]
  | returnWith value => value.toList
  | call callee args => callee :: args
  | methodCall receiver _ args => receiver :: args
  | structLit inits => inits.map FieldInit.value
  | field base _ => [base]
  | index base position => [base, position]
  | array elems | tuple elems => elems
  | select scrutinee => [scrutinee]

end ExprKind

/-- An expression with its position in the source and its resolved type. -/
structure Node where
  kind : ExprKind
  span : Span
  ty : TypeId
deriving DecidableEq, Repr, Inhabited

/-- All expressions of a program, by position. -/
structure Arena where
  nodes : Array Node
deriving DecidableEq, Repr

namespace Arena

/-- The arena without expressions. -/
def empty : Arena := ⟨#[]⟩

instance : Inhabited Arena := ⟨empty⟩

def size (arena : Arena) : Nat := arena.nodes.size

def isEmpty (arena : Arena) : Bool := arena.nodes.isEmpty

/-- Adds an expression and yields its position. -/
def push (arena : Arena) (node : Node) : ExprId × Arena :=
  (⟨arena.nodes.size⟩, ⟨arena.nodes.push node⟩)

def get? (arena : Arena) (expr : ExprId) : Option Node := arena.nodes[expr.index]?

/-- Replaces the resolved type of an expression. -/
def setType (arena : Arena) (expr : ExprId) (ty : TypeId) : Arena :=
  ⟨arena.nodes.modify expr.index fun node => { node with ty }⟩

end Arena

end TreeLowering.Tree
