/-
This file lowers programs in two phases. The first declares all structs, constants and signatures,
so that bodies can mention items in any order; the second lowers the bodies one after the other.
-/

import TreeLowering.Lowering.Function

namespace TreeLowering.Lowering

open TreeLowering.Ir TreeLowering.Tree

/-- Declares a struct or a constant; functions are declared after all of these. -/
def declareItem (source : Source) : Item → LowerM Unit
  | .struct decl => discard (lowerType source decl.ty)
  | .const decl => discard (declareConst source decl)
  | .function _ | .methods _ => return ()

/-- Declares everything, and then lowers every body. -/
def lowerItems (source : Source) : LowerM Unit := do
  source.program.items.forM (declareItem source)
  let declared ← source.program.functions.mapM fun decl => do
    return (decl, ← declareFn source decl)
  declared.forM fun (decl, func) => lowerFunction source decl func

/-- The module of a program. -/
def lowerProgram (source : Source) (options : Options) : Except Error Module :=
  match lowerItems source (Context.start options) with
  | .ok _ context => .ok context.builder.target
  | .error cause _ => .error cause

end TreeLowering.Lowering
