/-
This file numbers the list entries of an arena. Paths, blocks, struct literals and the expression
lists of calls, arrays and tuples each own a list. The entries of all lists of one class are
counted in the order in which their expressions were added, so every list occupies a range of that
count; an empty list is always the range `0..0`.
-/

import TreeLowering.Tree.Expr

namespace TreeLowering.Tree

/-- The four classes of lists an expression can own. -/
inductive ListClass where
  | names
  | stmts
  | exprs
  | fieldInits
deriving DecidableEq, Repr, Inhabited

/-- The label of a list class in descriptions. -/
def ListClass.label : ListClass → String
  | names => "NameRange"
  | stmts => "StmtRange"
  | exprs => "ExprRange"
  | fieldInits => "FieldInitRange"

/-- The class and length of the list an expression owns, if its shape has one. -/
def ExprKind.ownedList? : ExprKind → Option (ListClass × Nat)
  | path segments => some (.names, segments.length)
  | block _ stmts _ => some (.stmts, stmts.length)
  | call _ args => some (.exprs, args.length)
  | methodCall _ _ args => some (.exprs, args.length)
  | array elems => some (.exprs, elems.length)
  | tuple elems => some (.exprs, elems.length)
  | structLit inits => some (.fieldInits, inits.length)
  | _ => none

/-- A range of list entries of one class. -/
structure ListRange where
  listClass : ListClass
  start : Nat
  length : Nat
deriving DecidableEq, Repr, Inhabited

/-- A range is written with the label of its class and its two ends. -/
def ListRange.text (range : ListRange) : String :=
  range.listClass.label ++ "(" ++ toString range.start ++ ".." ++
    toString (range.start + range.length) ++ ")"

/-- How many entries of a class an expression contributes. -/
def ExprKind.entryCount (listClass : ListClass) (kind : ExprKind) : Nat :=
  match kind.ownedList? with
  | some (owned, length) => if owned = listClass then length else 0
  | none => 0

/-- The range of the list that an expression owns. -/
def Arena.ownedRange? (arena : Arena) (expr : ExprId) : Option ListRange := do
  let node ← arena.get? expr
  let (listClass, length) ← node.kind.ownedList?
  let earlier := arena.nodes.toList.take expr.index
  let start := earlier.foldr (fun node count => node.kind.entryCount listClass + count) 0
  return ⟨listClass, if length = 0 then 0 else start, length⟩

end TreeLowering.Tree
