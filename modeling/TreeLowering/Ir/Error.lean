/-
This file lists what can go wrong inside a module: a block that is closed already, a block or
function that does not exist, and two declarations of one name that disagree.
-/

import TreeLowering.Ir.Value

namespace TreeLowering.Ir

/-- A broken rule of a module, a function or a block. -/
inductive Error where
  | blockTerminated (label : String)
  | unknownBlock (block : BlockId) (function : String)
  | unknownFunction (func : FuncId)
  | tooManyBlocks (function : String)
  | tooManyFunctions
  | typeConflict (name : String) (existing new : List Ty)
  | globalConflict (name : String)
  | functionConflict (name : String) (existing new : Ty)
deriving DecidableEq, Repr

/-- A field list as it stands on the right of a type definition. -/
def fieldsText (fields : List Ty) : String := "\x7b " ++ Ty.textAll fields ++ " \x7d"

/-- The wording of each error. -/
def Error.message : Error → String
  | blockTerminated label => "block `" ++ label ++ "` is already terminated"
  | unknownBlock block function =>
    "block BlockId(" ++ toString block.index ++ ") does not exist in function `" ++ function ++ "`"
  | unknownFunction func =>
    "function `#" ++ toString func.index ++ "` is not declared in this module"
  | tooManyBlocks function =>
    "function `" ++ function ++ "` has more blocks than a block id can index"
  | tooManyFunctions => "module has more functions than a function id can index"
  | typeConflict name existing new =>
    "conflicting declarations of type `%" ++ name ++ "`: " ++ fieldsText existing ++ " vs " ++
      fieldsText new
  | globalConflict name => "conflicting declarations of global `@" ++ name ++ "`"
  | functionConflict name existing new =>
    "conflicting signatures for function `@" ++ name ++ "`: " ++ existing.text ++ " vs " ++
      new.text

end TreeLowering.Ir
