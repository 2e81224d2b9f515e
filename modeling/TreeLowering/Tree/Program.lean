/-
This file defines the items of a resolved program and the program itself: its types, expressions
and scopes, and its items in source order. Functions are declared free or inside a group of methods
of one type; `Program.functions` lists both kinds in source order.
-/

import TreeLowering.Tree.Expr

namespace TreeLowering.Tree

/-- A parameter of a declared function. -/
structure Param where
  name : Name
  ty : TypeId
  mutable : Bool
  span : Span
deriving DecidableEq, Repr, Inhabited

/-- A function declaration. -/
structure FunctionDecl where
  /-- The name in the source. -/
  name : Name
  /-- The name the function is emitted under. -/
  link : Name
  params : List Param
  ret : TypeId
  /-- The body, missing when the function is defined elsewhere. -/
  body : Option ExprId
  /-- The scope that holds the parameters. -/
  scope : ScopeId
  span : Span
deriving DecidableEq, Repr, Inhabited

/-- A value that was computed before lowering. -/
inductive ConstValue where
  | int (value : Int)
  | bool (value : Bool)
  | char (value : Char)
  | array (items : List ConstValue)
  /-- Field values in declared order. -/
  | struct (fields : List ConstValue)
deriving Repr, Inhabited

/-- A constant with its folded value. -/
structure ConstDecl where
  name : Name
  ty : TypeId
  value : ConstValue
  span : Span
deriving Repr, Inhabited

/-- A struct declaration; its fields are in the type pool. -/
structure StructDecl where
  name : Name
  ty : TypeId
  span : Span
deriving DecidableEq, Repr, Inhabited

/-- The methods of one type. -/
structure MethodGroup where
  selfType : TypeId
  functions : List FunctionDecl
  span : Span
deriving DecidableEq, Repr, Inhabited

/-- A top-level item. -/
inductive Item where
  | function (decl : FunctionDecl)
  | methods (group : MethodGroup)
  | const (decl : ConstDecl)
  | struct (decl : StructDecl)
deriving Repr, Inhabited

/-- The functions an item declares. -/
def Item.functions : Item → List FunctionDecl
  | function decl => [decl]
  | methods group => group.functions
  | const _ | struct _ => []

/-- A resolved program. -/
structure Program where
  types : TypePool
  arena : Arena
  scopes : ScopeTree
  items : List Item
deriving Repr

/-- The program without items and expressions. -/
def Program.empty : Program := ⟨.initial, .empty, .initial, []⟩

instance : Inhabited Program := ⟨.empty⟩

/-- All declared functions in source order. -/
def Program.functions (program : Program) : List FunctionDecl :=
  program.items.flatMap Item.functions

end TreeLowering.Tree
