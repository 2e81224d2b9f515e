/-
This file declares what bodies refer to: function signatures, constants and string literals. A
string literal lives in a global of its own, made when its text is first met, and is used as a
slice over that global.
-/

import TreeLowering.Lowering.Context

namespace TreeLowering.Lowering

open TreeLowering.Ir TreeLowering.Tree

/-! ### Functions -/

/-- Declares the signature of a function. -/
def declareFn (source : Source) (decl : FunctionDecl) : LowerM FuncId := do
  let params ← decl.params.mapM fun param => do
    return Ir.Param.mk (source.names.text param.name) (← lowerType source param.ty)
  let ret ← lowerType source decl.ret
  build (Build.declare fun target =>
    target.declareFunction (source.names.text decl.link) params ret)

/-- Names the parameters of a function of which only the type is known. -/
def numberParams (types : List Ty) : List Ir.Param :=
  types.mapIdx fun position ty => ⟨"arg" ++ toString position, ty⟩

/-- The function with a given link name, declared from its type when there is none. -/
def functionForSymbol (source : Source) (link : Name) (ty : TypeId) (span : Span) :
    LowerM FuncId := do
  let name := source.names.text link
  if let some func := (← get).builder.target.functionId? name then
    return func
  match source.program.types.kind ty with
  | .function params ret =>
    let types ← params.mapM (lowerType source)
    let ret ← lowerType source ret
    build (Build.declare fun target => target.declareFunction name (numberParams types) ret)
  | _ => throw (.notAFunction name span)

/-! ### Constants -/

mutual

/-- A folded value as a constant of the module. -/
def foldedConstant : ConstValue → Constant
  | .int value => .int value
  | .bool value => .bool value
  | .char value => .char value
  | .array items => .array (foldedConstants items)
  | .struct fields => .struct (foldedConstants fields)

/-- Folded values as constants of the module, in order. -/
def foldedConstants : List ConstValue → List Constant
  | [] => []
  | value :: rest => foldedConstant value :: foldedConstants rest

end

/-- Declares a constant as a global and yields its address. -/
def declareConst (source : Source) (decl : ConstDecl) : LowerM Value := do
  let ty ← lowerType source decl.ty
  let global : Global := ⟨source.names.text decl.name, ty, foldedConstant decl.value⟩
  build (Build.declare fun target => target.declareGlobal global)

/-! ### String literals -/

/-- The global that holds the bytes of the string literal with a given number. -/
def stringGlobal (number : Nat) (text : String) : Global :=
  ⟨".str." ++ toString number, .array .u8 text.utf8ByteSize.toUInt64,
    .bytes text.toUTF8.toList⟩

/-- The address of the global of a string literal, made when the text is first met. -/
def internString (text : String) : LowerM Value := do
  let strings := (← get).strings
  match strings.lookup text with
  | some address => return address
  | none =>
    let address ← build (Build.declare fun target =>
      target.declareGlobal (stringGlobal strings.length text))
    modify fun context => { context with strings := (text, address) :: context.strings }
    return address

/-- A string literal as a slice over its global. -/
def stringLiteral (text : String) : LowerM Value := do
  match ← internString text with
  | .global name _ =>
    return .const (.slice name text.utf8ByteSize.toUInt64) (.slice .u8)
  | _ => throw (.unsupported "string literal" .nowhere)

end TreeLowering.Lowering
