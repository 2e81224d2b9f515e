/-
This file finds the local names of a body whose address is needed: names borrowed, or used as the
base of a field access or an index. Such a name gets its slot where it is bound, so that every use
shares one address. Names are taken as they are written, so a name that hides another of the same
spelling counts as well.
-/

import TreeLowering.Tree.Program

namespace TreeLowering.Tree.Program

/-- The name at the bottom of a chain of field accesses and indices, looking through at most
`fuel` of them. A base of reference type is read as a value, so nothing below it counts. -/
def rootWithin (program : Program) : (fuel : Nat) → ExprId → Option Name
  | 0, _ => none
  | fuel + 1, expr => do
    let node ← program.arena.get? expr
    match node.kind with
    | .path [name] => some name
    | .field base _ | .index base _ =>
      let baseNode ← program.arena.get? base
      if program.types.isReference baseNode.ty then none else program.rootWithin fuel base
    | _ => none

/-- The local name a place is addressed through, if there is one. A chain without a cycle is no
longer than the arena. -/
def placeRoot? (program : Program) (expr : ExprId) : Option Name :=
  program.rootWithin (program.arena.size + 1) expr

/-- The name whose address an expression itself needs. -/
def takenBy? (program : Program) (expr : ExprId) : ExprKind → Option Name
  | .borrow _ operand => program.placeRoot? operand
  | .field .. | .index .. => program.placeRoot? expr
  | _ => none

/-- Which expressions a search has met, and the names it has found. -/
structure TakenSearch where
  visited : Array Bool
  taken : List Name

/-- Goes through the expressions that wait, each of them once, and through all their parts. -/
def searchTaken (program : Program) : (fuel : Nat) → List ExprId → TakenSearch → TakenSearch
  | 0, _, search => search
  | _ + 1, [], search => search
  | fuel + 1, expr :: waiting, search =>
    if search.visited.getD expr.index true then program.searchTaken fuel waiting search
    else
      match program.arena.get? expr with
      | none => program.searchTaken fuel waiting search
      | some node =>
        let visited := search.visited.setIfInBounds expr.index true
        let taken := match program.takenBy? expr node.kind with
          | some name => search.taken.insert name
          | none => search.taken
        program.searchTaken fuel (node.kind.children ++ waiting) ⟨visited, taken⟩

/-- How many steps a search can take: the expression it starts from, and every part of every
expression. -/
def searchBound (program : Program) : Nat :=
  program.arena.nodes.foldl (fun total node => total + node.kind.children.length) 2

/-- The names whose address is needed anywhere in a body. -/
def addressTaken (program : Program) (body : ExprId) : List Name :=
  let start : TakenSearch := ⟨Array.replicate program.arena.size false, []⟩
  (program.searchTaken program.searchBound [body] start).taken

end TreeLowering.Tree.Program
