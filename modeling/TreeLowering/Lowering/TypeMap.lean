/-
This file maps resolved types to types of the instruction set. The mapping is structural, except
that a reference to text or to a slice is the slice itself, and that a struct maps to its name and
is declared in the module when it is first met. A struct met again while its own fields are being
mapped is known by its name already, which is what ends the mapping of a struct that mentions
itself.
-/

import TreeLowering.Lowering.Error
import TreeLowering.Tree.Program

namespace TreeLowering.Lowering

open TreeLowering.Ir TreeLowering.Tree

/-- The program being lowered and the texts of its names. -/
structure Source where
  program : Program
  names : NameTable
deriving Inhabited

/-- What the mapping remembers: types mapped before, and structs whose fields are being mapped. -/
structure TypeMemo where
  known : List (TypeId × Ty)
  pending : List TypeId
deriving DecidableEq, Repr

/-- The memory before any type is mapped. -/
def TypeMemo.empty : TypeMemo := ⟨[], []⟩

instance : Inhabited TypeMemo := ⟨.empty⟩

/-- The mapping's memory and the module it declares structs in. -/
structure TypeState where
  memo : TypeMemo
  target : Module

/-- Mapping steps: a failed step keeps what it has done so far. -/
abbrev TypeM := EStateM Error TypeState

namespace TypeM

/-- Remembers the result of a mapping. -/
def remember (ty : TypeId) (mapped : Ty) : TypeM Unit :=
  modify fun state =>
    { state with memo := { state.memo with known := (ty, mapped) :: state.memo.known } }

/-- Marks a struct as being mapped and reserves its name. -/
def openStruct (ty : TypeId) (name : String) : TypeM Unit :=
  modify fun state =>
    { memo := { state.memo with pending := ty :: state.memo.pending },
      target := state.target.declareName name }

/-- Takes the mark of `openStruct` back. -/
def closeStruct (ty : TypeId) (state : TypeState) : TypeState :=
  { state with memo := { state.memo with pending := state.memo.pending.erase ty } }

/-- Runs the mapping of a struct's fields between the two marks; the second is set even when the
mapping fails. -/
def whileOpen (ty : TypeId) (name : String) (action : TypeM α) : TypeM α := fun state =>
  match (openStruct ty name *> action) state with
  | .ok result after => .ok result (closeStruct ty after)
  | .error cause after => .error cause (closeStruct ty after)

/-- Declares a struct with its mapped fields. -/
def declareStruct (name : String) (fields : List Ty) : TypeM Unit := fun state =>
  match state.target.declareType name fields with
  | .ok () target => .ok () { state with target }
  | .error cause target => .error (.ir cause) { state with target }

end TypeM

open TypeM

/-- Maps a struct, given how to map the types of its fields. -/
def mapStruct (source : Source) (mapField : TypeId → TypeM Ty) (ty : TypeId)
    (definition : StructDef) : TypeM Ty := do
  let name := source.names.text definition.name
  if (← get).memo.pending.contains ty then
    return .struct name
  let fields ← whileOpen ty name (definition.fields.mapM fun field => mapField field.2)
  declareStruct name fields
  remember ty (.struct name)
  return .struct name

/-- Maps any other type, given how to map its parts. What is left open stays unresolved, and so
would a struct, which never comes here. -/
def mapShape (source : Source) (mapPart : TypeId → TypeM Ty) : TypeKind → TypeM Ty
  | .bool => return .bool
  | .char => return .char
  | .i32 => return .i32
  | .u32 => return .u32
  | .isize => return .isize
  | .usize => return .usize
  | .u8 => return .u8
  | .unit => return .unit
  | .never => return .never
  | .str => return .slice .u8
  | .slice elem => return .slice (← mapPart elem)
  | .reference pointee mutable => do
    let mapped ← mapPart pointee
    match source.program.types.kind pointee with
    | .str | .slice _ => return mapped
    | _ => return .ptr mapped mutable
  | .array elem len => return .array (← mapPart elem) len
  | .function params ret => do
    let params ← params.mapM mapPart
    return .func params (← mapPart ret)
  | .infer | .struct _ => return .unresolved "_"

/-- Maps a type through at most `fuel` levels. -/
def mapTypeWithin (source : Source) : (fuel : Nat) → TypeId → TypeM Ty
  | 0, _ => throw .malformedTree
  | fuel + 1, ty => do
    if let some mapped := (← get).memo.known.lookup ty then
      return mapped
    match source.program.types.kind ty with
    | .struct definition => mapStruct source (mapTypeWithin source fuel) ty definition
    | kind =>
      let mapped ← mapShape source (mapTypeWithin source fuel) kind
      remember ty mapped
      return mapped

/-- How deep the mapping of a type can go when types contain themselves only through structs:
between two structs on the way down stand at most as many types as the pool has, and the same
struct is never opened twice. -/
def Source.typeDepth (source : Source) : Nat :=
  (source.program.types.size + 2) * (source.program.types.size + 2)

/-- Maps a type, declaring the structs it mentions. -/
def mapType (source : Source) (ty : TypeId) : TypeM Ty :=
  mapTypeWithin source source.typeDepth ty

end TreeLowering.Lowering
