/-
This file defines modules: a name and tables whose indexes are in step. A module is searched as its
tables are, and declares what they do; no operation can leave an index behind its table.
-/

import TreeLowering.Ir.Tables

namespace TreeLowering.Ir

/-- One unit of output. -/
structure Module extends Tables where
  name : String
  inStep : toTables.InStep
deriving DecidableEq, Repr

namespace Module

/-- The module without declarations. -/
def empty (name : String) : Module := ⟨.empty, name, .empty⟩

instance : Inhabited Module := ⟨empty ""⟩

/-- The module with other tables. -/
def withTables (target : Module) (tables : Tables) (inStep : tables.InStep) : Module :=
  ⟨tables, target.name, inStep⟩

/-! ### Declarations -/

/-- What a declaration in the tables of a module does to the module. -/
def carry {α : Type} (target : Module) (result : EStateM.Result Error Tables α)
    (inStep : (Tables.after result).InStep) : EStateM.Result Error Module α :=
  match result, inStep with
  | .ok answer tables, inStep => .ok answer (target.withTables tables inStep)
  | .error cause tables, inStep => .error cause (target.withTables tables inStep)

/-- Reserves the name of a struct whose fields are not known yet. -/
def declareName (target : Module) (name : String) : Module :=
  target.withTables (target.toTables.declareName name) (target.inStep.declareName name)

/-- Declares a struct with its fields, or completes a reserved one. -/
def declareType (target : Module) (name : String) (fields : List Ty) :
    EStateM.Result Error Module Unit :=
  target.carry (target.toTables.declareType name fields) (target.inStep.declareType name fields)

/-- Declares a global and yields its address. -/
def declareGlobal (target : Module) (global : Global) : EStateM.Result Error Module Value :=
  target.carry (target.toTables.declareGlobal global) (target.inStep.declareGlobal global)

/-- Declares a function and yields its position. -/
def declareFunction (target : Module) (name : String) (params : List Param) (ret : Ty) :
    EStateM.Result Error Module FuncId :=
  target.carry (target.toTables.declareFunction name params ret)
    (target.inStep.declareFunction name params ret)

/-! ### Functions -/

/-- The function at a position, or the error that it is not declared. -/
def getFunction (target : Module) (func : FuncId) : Except Error Function :=
  match target.function? func with
  | some found => .ok found
  | none => .error (.unknownFunction func)

def functionByName? (target : Module) (name : String) : Option Function := do
  target.function? (← target.functionId? name)

/-- The operand that calls a function. -/
def functionRef (target : Module) (func : FuncId) : Except Error Value := do
  let function ← target.getFunction func
  return .global function.name function.signature

/-! ### Blocks -/

/-- The block at a position of a function, or the error that it does not exist. -/
def getBlock (target : Module) (func : FuncId) (block : BlockId) : Except Error Block := do
  let function ← target.getFunction func
  function.getBlock block

/-- Succeeds when a block exists and may still grow. -/
def checkOpen (target : Module) (func : FuncId) (block : BlockId) : Except Error Unit := do
  let found ← target.getBlock func block
  if found.isTerminated then throw (.blockTerminated found.label)

/-- Succeeds when a function exists and has room for one more block. -/
def checkRoom (target : Module) (func : FuncId) : Except Error Unit := do
  let function ← target.getFunction func
  unless function.nextBlock.index < idLimit do throw (.tooManyBlocks function.name)

/-- Changes one function, which keeps its name. -/
def modifyFunction (target : Module) (func : FuncId) (change : Function → Function)
    (named : ∀ function, (change function).name = function.name := by simp) : Module :=
  target.withTables (target.toTables.modifyFunction func change)
    (target.inStep.modifyFunction func named)

/-- Changes one block of one function. -/
def modifyBlock (target : Module) (func : FuncId) (block : BlockId) (change : Block → Block) :
    Module :=
  target.modifyFunction func fun function => function.modifyBlock block change

end Module

end TreeLowering.Ir
