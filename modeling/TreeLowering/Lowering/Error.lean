/-
This file lists why lowering can fail and how each failure is worded. A failure ends the lowering
of the whole program. Its category says whose fault it is: a construct that lowering does not
cover, a broken promise of an earlier stage or of lowering itself, or a construct in a place where
its context does not allow it.
-/

import TreeLowering.Ir.Layout
import TreeLowering.Tree.Span

namespace TreeLowering.Lowering

open TreeLowering.Ir TreeLowering.Tree

/-- Whose fault a failure is. -/
inductive Category where
  | unsupported
  | invariant
  | controlContext
deriving DecidableEq, Repr, Inhabited

/-- The two ways to jump to an edge of the innermost loop. -/
inductive LoopJump where
  | leave
  | again
deriving DecidableEq, Repr, Inhabited

def LoopJump.keyword : LoopJump → String
  | leave => "break"
  | again => "continue"

/-- Why lowering failed. -/
inductive Error where
  | unsupported (what : String) (span : Span)
  | qualifiedPath (path : String) (span : Span)
  | unsupportedCast (found wanted : Ty) (span : Span)
  | unresolvedName (name : String) (span : Span)
  | notAFunction (name : String) (span : Span)
  | expectedStruct (found : Ty) (span : Span)
  | unknownField (field : String) (ty : Ty) (span : Span)
  | missingField (field : String) (span : Span)
  | nonBoolCondition (found : Ty) (span : Span)
  /-- An instruction was emitted after a terminator. -/
  | noInsertionPoint
  | ir (cause : Ir.Error)
  | outsideLoop (jump : LoopJump) (span : Span)
  | returnOutsideFunction (span : Span)
  | derefNonPointer (found : Ty) (span : Span)
  | indexNonArray (found : Ty) (span : Span)
  | notAddressable (what : String) (span : Span)
  | immutablePlace (span : Span)
  /-- An expression or type contains itself or refers to a part that does not exist. -/
  | malformedTree
  /-- The size of a type does not fit a word. -/
  | trap (cause : Trap)
deriving DecidableEq, Repr

namespace Error

def category : Error → Category
  | unsupported .. | qualifiedPath .. | unsupportedCast .. => .unsupported
  | unresolvedName .. | notAFunction .. | expectedStruct .. | unknownField .. | missingField ..
  | nonBoolCondition .. | noInsertionPoint | ir _ | malformedTree | trap _ =>
    .invariant
  | outsideLoop .. | returnOutsideFunction _ | derefNonPointer .. | indexNonArray ..
  | notAddressable .. | immutablePlace _ => .controlContext

/-- A sentence behind the position it belongs to. -/
def located (span : Span) (sentence : String) : String := span.text ++ ": " ++ sentence

/-- The wording of each failure. -/
def message : Error → String
  | unsupported what span => located span (what ++ " is not supported by lowering")
  | qualifiedPath path span =>
    located span ("qualified path `" ++ path ++ "` is not supported by lowering")
  | unsupportedCast found wanted span =>
    located span ("cannot cast `" ++ found.text ++ "` to `" ++ wanted.text ++ "`")
  | unresolvedName name span => located span ("unresolved name `" ++ name ++ "`")
  | notAFunction name span => located span ("`" ++ name ++ "` does not name a function")
  | expectedStruct found span =>
    located span ("expected a struct type, found `" ++ found.text ++ "`")
  | unknownField field ty span =>
    located span ("no field `" ++ field ++ "` on `" ++ ty.text ++ "`")
  | missingField field span =>
    located span ("struct literal is missing field `" ++ field ++ "`")
  | nonBoolCondition found span =>
    located span ("condition has type `" ++ found.text ++ "`, expected `bool`")
  | noInsertionPoint => "no insertion point: emitting after a terminator"
  | ir cause => cause.message
  | outsideLoop jump span => located span ("`" ++ jump.keyword ++ "` outside of a loop")
  | returnOutsideFunction span => located span "`return` outside of a function"
  | derefNonPointer found span => located span ("cannot dereference `" ++ found.text ++ "`")
  | indexNonArray found span => located span ("cannot index into `" ++ found.text ++ "`")
  | notAddressable what span => located span (what ++ " is not addressable")
  | immutablePlace span => located span "cannot mutate through an immutable place"
  | malformedTree => "the program contains itself or refers to a part that does not exist"
  | trap cause => cause.message

end Error

end TreeLowering.Lowering
