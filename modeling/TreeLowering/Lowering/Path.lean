/-
This file says what a path stands for. Only paths of one name are accepted. A name means its local
binding if it has one, and else what the scopes of the program say; it can be used as a value, as a
place, or as the function of a call.
-/

import TreeLowering.Lowering.Place

namespace TreeLowering.Lowering

open TreeLowering.Ir TreeLowering.Tree

/-- The only name of a path; longer paths are not supported. -/
def Walk.singleName (walk : Walk) (segments : List Name) (span : Span) : LowerM Name :=
  match segments with
  | [name] => return name
  | [] => throw (.unresolvedName "" span)
  | names => throw (.qualifiedPath ("::".intercalate (names.map walk.text)) span)

/-! ### Places -/

/-- The global of a constant, as an immutable place. -/
def globalPlace (source : Source) (name : Name) (span : Span) : LowerM Place := do
  let unresolved := Error.unresolvedName (source.names.text name) span
  match ← resolveSymbol? source name .value with
  | some (.const link ty) =>
    let ty ← lowerType source ty
    match (← get).builder.target.global? (source.names.text link) with
    | some global => return ⟨global.address, ty, false⟩
    | none => throw unresolved
  | _ => throw unresolved

/-- The place of a path: the slot of a local, or the global of a constant. A local that is held
as a value gets a slot on the spot. -/
def pathPlace (walk : Walk) (segments : List Name) (span : Span) : LowerM Place := do
  let name ← walk.singleName segments span
  match ← localBinding? name with
  | some (.slot address ty mutable) => return ⟨address, ty, mutable⟩
  | some (.value value) => spill value (walk.text name)
  | some (.param value) => spill value (walk.text name)
  | none => globalPlace walk.toSource name span

/-! ### Values -/

/-- A path as a value: locals and parameters as they are, slots and constants loaded, functions by
their address. -/
def lowerPath (walk : Walk) (segments : List Name) (span : Span) : LowerM Value := do
  let name ← walk.singleName segments span
  match ← localBinding? name with
  | some (.value value) => return value
  | some (.param value) => return value
  | some (.slot address ty _) => build (Build.load address ty)
  | none =>
    match ← resolveSymbol? walk.toSource name .value with
    | some (.function link ty) =>
      let func ← functionForSymbol walk.toSource link ty span
      build (Build.ask fun target => target.functionRef func)
    | _ => loadPlace (← globalPlace walk.toSource name span)

/-! ### Functions -/

/-- The function a called name stands for. -/
def calledFunction (walk : Walk) (name : Name) (span : Span) : LowerM FuncId := do
  if (← localBinding? name).isSome then
    throw (.unsupported "call through a local binding" span)
  match ← resolveSymbol? walk.toSource name .value with
  | some (.function link ty) => functionForSymbol walk.toSource link ty span
  | some _ => throw (.notAFunction (walk.text name) span)
  | none => throw (.unresolvedName (walk.text name) span)

end TreeLowering.Lowering
