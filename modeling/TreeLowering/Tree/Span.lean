/-
This file defines source positions. A span is a half-open byte range of the text a node came
from; lowering reads spans only to say where a diagnostic belongs.
-/

namespace TreeLowering.Tree

/-- The byte range from `start` up to, but not including, `stop`. -/
structure Span where
  start : Nat
  stop : Nat
deriving DecidableEq, Repr, Inhabited

/-- The span of a node that has no source text of its own. -/
def Span.nowhere : Span := ⟨0, 0⟩

/-- A span is written `start..stop`; every diagnostic with a position begins with it. -/
def Span.text (span : Span) : String :=
  toString span.start ++ ".." ++ toString span.stop

end TreeLowering.Tree
