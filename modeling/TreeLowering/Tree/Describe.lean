/-
This file spells positions for people: how names, types, scopes and expressions are shown when a
tree is inspected.
-/

import TreeLowering.Tree.Expr

namespace TreeLowering.Tree

def Name.describe (name : Name) : String := "Name(" ++ toString name.index ++ ")"

def TypeId.describe (ty : TypeId) : String := "TyId(" ++ toString ty.index ++ ")"

def ScopeId.describe (scope : ScopeId) : String := "ScopeId(" ++ toString scope.index ++ ")"

/-- An expression, or the mark of a missing one. -/
def describeExpr : Option ExprId → String
  | some expr => "ExprId(" ++ toString expr.index ++ ")"
  | none => "ExprId::INVALID"

end TreeLowering.Tree
