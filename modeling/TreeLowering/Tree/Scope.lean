/-
This file defines the tree of scopes that name resolution leaves behind. Each scope maps names to
symbols, values and types apart, and knows its parent; a lookup walks from a scope towards the
root and stops at the first scope that defines the name.
-/

import TreeLowering.Tree.TypePool

namespace TreeLowering.Tree

/-- A scope: its position in a `ScopeTree`. -/
structure ScopeId where
  index : Nat
deriving DecidableEq, Repr, Inhabited

/-- The outermost scope. -/
def ScopeId.root : ScopeId := ⟨0⟩

/-- Which of a scope's two tables a lookup reads. -/
inductive NameClass where
  | value
  | type
deriving DecidableEq, Repr, Inhabited

/-- What a resolved name stands for. -/
inductive Symbol where
  /-- A function, emitted under `link`. -/
  | function (link : Name) (ty : TypeId)
  /-- A module-level constant, emitted under `link`. -/
  | const (link : Name) (ty : TypeId)
  | struct (ty : TypeId)
  /-- A local binding or parameter; lowering decides where it is stored. -/
  | binding (ty : TypeId)
deriving DecidableEq, Repr, Inhabited

/-- The resolved type of a symbol. -/
def Symbol.ty : Symbol → TypeId
  | function _ ty => ty
  | const _ ty => ty
  | struct ty => ty
  | binding ty => ty

/-- One scope: its parent, and its two tables with the newest definition first. -/
structure Scope where
  parent : Option ScopeId
  values : List (Name × Symbol)
  types : List (Name × Symbol)
deriving DecidableEq, Repr, Inhabited

namespace Scope

/-- The table a lookup in the given class reads. -/
def table (scope : Scope) : NameClass → List (Name × Symbol)
  | .value => scope.values
  | .type => scope.types

/-- Puts a definition in front of the table, so that it hides an earlier one of that name. -/
def define (scope : Scope) (nameClass : NameClass) (name : Name) (symbol : Symbol) : Scope :=
  match nameClass with
  | .value => { scope with values := (name, symbol) :: scope.values }
  | .type => { scope with types := (name, symbol) :: scope.types }

/-- What the scope itself says about a name. -/
def find? (scope : Scope) (nameClass : NameClass) (name : Name) : Option Symbol :=
  (scope.table nameClass).lookup name

end Scope

/-- Scopes by position; the root is at position zero. -/
structure ScopeTree where
  scopes : Array Scope
deriving DecidableEq, Repr

namespace ScopeTree

/-- The tree with an empty root and nothing else. -/
def initial : ScopeTree := ⟨#[⟨none, [], []⟩]⟩

instance : Inhabited ScopeTree := ⟨initial⟩

def size (tree : ScopeTree) : Nat := tree.scopes.size

/-- Opens a scope inside `parent`. -/
def pushChild (tree : ScopeTree) (parent : ScopeId) : ScopeId × ScopeTree :=
  (⟨tree.scopes.size⟩, ⟨tree.scopes.push ⟨some parent, [], []⟩⟩)

/-- Defines a name in `scope`; nothing happens when there is no such scope. -/
def define (tree : ScopeTree) (scope : ScopeId) (nameClass : NameClass) (name : Name)
    (symbol : Symbol) : ScopeTree :=
  ⟨tree.scopes.modify scope.index fun found => found.define nameClass name symbol⟩

def parent? (tree : ScopeTree) (scope : ScopeId) : Option ScopeId := do
  let found ← tree.scopes[scope.index]?
  found.parent

/-- Looks a name up in at most `fuel` scopes, from `scope` towards the root. -/
def resolveWithin (tree : ScopeTree) (nameClass : NameClass) (name : Name) :
    (fuel : Nat) → ScopeId → Option Symbol
  | 0, _ => none
  | fuel + 1, scope => do
    let found ← tree.scopes[scope.index]?
    match found.find? nameClass name with
    | some symbol => some symbol
    | none => tree.resolveWithin nameClass name fuel (← found.parent)

/-- What a name stands for in `scope`. A walk that meets no scope twice visits at most as many
scopes as the tree has. -/
def resolve? (tree : ScopeTree) (scope : ScopeId) (name : Name) (nameClass : NameClass) :
    Option Symbol :=
  tree.resolveWithin nameClass name tree.size scope

end ScopeTree

end TreeLowering.Tree
