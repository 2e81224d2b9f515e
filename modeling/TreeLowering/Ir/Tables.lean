/-
This file defines the tables of a module: named struct types, globals and functions, each in the
order of their declaration. Beside each table stands an index, which holds the position of an entry
under its name; a search by name asks the index. Declaring is idempotent. Repeating a declaration
yields the existing entry, and a declaration that disagrees with an existing entry of its name
fails. Two functions agree when their types do; the names of their parameters do not matter.

A declaration leaves tables behind whether it succeeds or not. That every index is in step with its
table is shown once for each of them.
-/

import TreeLowering.Ir.Function

namespace TreeLowering.Ir

/-- A named struct type; the fields are missing while they are still being worked out. -/
structure TypeDef where
  name : String
  fields : Option (List Ty)
deriving DecidableEq, Repr, Inhabited

/-- A constant with an address. -/
structure Global where
  name : String
  ty : Ty
  init : Constant
deriving DecidableEq, Repr, Inhabited

/-- The operand for the address of a global. -/
def Global.address (global : Global) : Value := .global global.name (.ptr global.ty false)

/-- What is declared, with an index of the names for each table. -/
structure Tables where
  types : Array TypeDef
  typeIndex : List (String × Nat)
  globals : Array Global
  globalIndex : List (String × Nat)
  functions : Array Function
  functionIndex : List (String × FuncId)
deriving DecidableEq, Repr, Inhabited

namespace Tables

/-- The tables without entries. -/
def empty : Tables := ⟨#[], [], #[], [], #[], []⟩

/-- The tables after a declaration, accepted or not. -/
def after {α : Type} : EStateM.Result Error Tables α → Tables
  | .ok _ tables => tables
  | .error _ tables => tables

/-! ### Types -/

def typeDef? (tables : Tables) (name : String) : Option TypeDef := do
  tables.types[← tables.typeIndex.lookup name]?

/-- The fields of a struct that is declared in full. -/
def structFields? (tables : Tables) (name : String) : Option (List Ty) := do
  let found ← tables.typeDef? name
  found.fields

/-- Adds a struct at the end. -/
def addType (tables : Tables) (entry : TypeDef) : Tables :=
  { tables with
    typeIndex := (entry.name, tables.types.size) :: tables.typeIndex
    types := tables.types.push entry }

/-- Gives the struct at a position its fields. -/
def setFields (tables : Tables) (position : Nat) (fields : List Ty) : Tables :=
  { tables with
    types := tables.types.modify position fun entry => { entry with fields := some fields } }

/-- Reserves the name of a struct whose fields are not known yet. -/
def declareName (tables : Tables) (name : String) : Tables :=
  match tables.typeIndex.lookup name with
  | some _ => tables
  | none => tables.addType ⟨name, none⟩

/-- Declares a struct with its fields, or completes a reserved one. The name is reserved first, and
the fields are compared with what then stands under it. -/
def declareType (tables : Tables) (name : String) (fields : List Ty) :
    EStateM.Result Error Tables Unit :=
  let reserved := tables.declareName name
  match reserved.typeIndex.lookup name with
  | none => .ok () reserved
  | some position =>
    match reserved.types[position]? with
    | none => .ok () reserved
    | some ⟨_, none⟩ => .ok () (reserved.setFields position fields)
    | some ⟨_, some existing⟩ =>
      if existing = fields then .ok () reserved
      else .error (.typeConflict name existing fields) reserved

/-! ### Globals -/

def global? (tables : Tables) (name : String) : Option Global := do
  tables.globals[← tables.globalIndex.lookup name]?

/-- Adds a global at the end. -/
def addGlobal (tables : Tables) (global : Global) : Tables :=
  { tables with
    globalIndex := (global.name, tables.globals.size) :: tables.globalIndex
    globals := tables.globals.push global }

/-- Declares a global and yields its address. -/
def declareGlobal (tables : Tables) (global : Global) : EStateM.Result Error Tables Value :=
  match tables.global? global.name with
  | none => .ok global.address (tables.addGlobal global)
  | some existing =>
    if existing = global then .ok existing.address tables
    else .error (.globalConflict global.name) tables

/-! ### Functions -/

def functionId? (tables : Tables) (name : String) : Option FuncId :=
  tables.functionIndex.lookup name

def function? (tables : Tables) (func : FuncId) : Option Function :=
  tables.functions[func.index]?

/-- Adds a function at the end. -/
def addFunction (tables : Tables) (function : Function) : Tables :=
  { tables with
    functionIndex := (function.name, ⟨tables.functions.size⟩) :: tables.functionIndex
    functions := tables.functions.push function }

/-- Declares a function and yields its position; its body is given later, block by block. -/
def declareFunction (tables : Tables) (name : String) (params : List Param) (ret : Ty) :
    EStateM.Result Error Tables FuncId :=
  let candidate := Function.declared name params ret
  match tables.functionId? name with
  | some func =>
    match tables.function? func with
    | none => .ok func tables
    | some existing =>
      if existing.signature = candidate.signature then .ok func tables
      else .error (.functionConflict name existing.signature candidate.signature) tables
  | none =>
    if tables.functions.size < idLimit then
      .ok ⟨tables.functions.size⟩ (tables.addFunction candidate)
    else .error .tooManyFunctions tables

/-- Changes one function. -/
def modifyFunction (tables : Tables) (func : FuncId) (change : Function → Function) : Tables :=
  { tables with functions := tables.functions.modify func.index change }

/-! ### Indexes in step -/

/-- Under each name the index has the one position at which an entry of that name stands. -/
def Indexes {Position Entry : Type} (index : List (String × Position))
    (entryAt : Position → Option Entry) (called : Entry → String) : Prop :=
  ∀ name position, index.lookup name = some position ↔
    (entryAt position).map called = some name

/-- Every index agrees with its table. -/
structure InStep (tables : Tables) : Prop where
  types : Indexes tables.typeIndex (fun position => tables.types[position]?) TypeDef.name
  globals : Indexes tables.globalIndex (fun position => tables.globals[position]?) Global.name
  functions : Indexes tables.functionIndex tables.function? Function.name

namespace Indexes

variable {Position Entry : Type} {index : List (String × Position)}
  {entryAt entryAt' : Position → Option Entry} {called : Entry → String}

/-- An entry under a new name is indexed at a new position. -/
theorem insert (inStep : Indexes index entryAt called) {entry : Entry} {fresh : Position}
    (missing : index.lookup (called entry) = none) (here : entryAt' fresh = some entry)
    (free : entryAt fresh = none)
    (others : ∀ position, position ≠ fresh → entryAt' position = entryAt position) :
    Indexes ((called entry, fresh) :: index) entryAt' called := by
  intro name position
  rw [List.lookup_cons]
  by_cases moved : position = fresh
  · subst moved
    rw [here, Option.map_some, Option.some.injEq]
    split
    · next same => exact ⟨fun _ => (beq_iff_eq.1 same).symm, fun _ => rfl⟩
    · next other =>
      refine ⟨fun found => ?_, fun same => absurd same.symm (beq_eq_false_iff_ne.1 other)⟩
      rw [inStep, free] at found
      cases found
  · rw [others position moved, ← inStep]
    split
    · next same =>
      rw [beq_iff_eq.1 same, missing]
      exact ⟨fun found => absurd (Option.some.inj found).symm moved, fun found => nomatch found⟩
    · rfl

/-- What is done to the entries does not matter to an index when it keeps their names. -/
theorem of_names (inStep : Indexes index entryAt called)
    (names : ∀ position, (entryAt' position).map called = (entryAt position).map called) :
    Indexes index entryAt' called := by
  intro name position
  rw [names]
  exact inStep name position

/-- A name under which no entry is found is not in the index. -/
theorem lookup_eq_none (inStep : Indexes index entryAt called) {name : String}
    (missing : (index.lookup name).bind entryAt = none) : index.lookup name = none := by
  cases indexed : index.lookup name with
  | none => rfl
  | some position =>
    obtain ⟨entry, stored, _⟩ := Option.map_eq_some_iff.1 ((inStep name position).1 indexed)
    rw [indexed, Option.bind_some, stored] at missing
    cases missing

end Indexes

namespace InStep

theorem empty : Tables.empty.InStep := by
  constructor <;> intro name position <;> simp [Tables.empty, function?]

variable {tables : Tables}

theorem addType (inStep : tables.InStep) {entry : TypeDef}
    (missing : tables.typeIndex.lookup entry.name = none) : (tables.addType entry).InStep where
  types := by
    refine inStep.types.insert missing (Array.getElem?_push_size ..)
      (Array.getElem?_eq_none_iff.2 (Nat.le_refl _)) fun position other => ?_
    exact Array.getElem?_push.trans (if_neg other)
  globals := inStep.globals
  functions := inStep.functions

theorem setFields (inStep : tables.InStep) (position : Nat) (fields : List Ty) :
    (tables.setFields position fields).InStep where
  types := by
    refine inStep.types.of_names fun index => ?_
    rw [Tables.setFields, Array.getElem?_modify]
    split
    · cases tables.types[index]? <;> rfl
    · rfl
  globals := inStep.globals
  functions := inStep.functions

theorem declareName (inStep : tables.InStep) (name : String) : (tables.declareName name).InStep := by
  unfold Tables.declareName
  split
  · exact inStep
  · next missing => exact @addType tables inStep ⟨name, none⟩ missing

theorem declareType (inStep : tables.InStep) (name : String) (fields : List Ty) :
    (after (tables.declareType name fields)).InStep := by
  have reserved := inStep.declareName name
  unfold Tables.declareType
  dsimp only
  split
  · exact reserved
  · split
    · exact reserved
    · exact reserved.setFields _ fields
    · split <;> exact reserved

theorem addGlobal (inStep : tables.InStep) {global : Global}
    (missing : tables.globalIndex.lookup global.name = none) :
    (tables.addGlobal global).InStep where
  types := inStep.types
  globals := by
    refine inStep.globals.insert missing (Array.getElem?_push_size ..)
      (Array.getElem?_eq_none_iff.2 (Nat.le_refl _)) fun position other => ?_
    exact Array.getElem?_push.trans (if_neg other)
  functions := inStep.functions

theorem declareGlobal (inStep : tables.InStep) (global : Global) :
    (after (tables.declareGlobal global)).InStep := by
  unfold Tables.declareGlobal
  split
  · next missing => exact inStep.addGlobal (inStep.globals.lookup_eq_none missing)
  · split <;> exact inStep

theorem addFunction (inStep : tables.InStep) {function : Function}
    (missing : tables.functionId? function.name = none) :
    (tables.addFunction function).InStep where
  types := inStep.types
  globals := inStep.globals
  functions := by
    refine inStep.functions.insert missing (Array.getElem?_push_size ..)
      (Array.getElem?_eq_none_iff.2 (Nat.le_refl _)) fun func other => ?_
    exact Array.getElem?_push.trans (if_neg fun same => other (congrArg FuncId.mk same))

theorem declareFunction (inStep : tables.InStep) (name : String) (params : List Param) (ret : Ty) :
    (after (tables.declareFunction name params ret)).InStep := by
  unfold Tables.declareFunction
  dsimp only
  split
  · split
    · exact inStep
    · split <;> exact inStep
  · next missing =>
    split
    · exact @addFunction tables inStep (.declared name params ret) missing
    · exact inStep

theorem modifyFunction (inStep : tables.InStep) (func : FuncId) {change : Function → Function}
    (named : ∀ function, (change function).name = function.name) :
    (tables.modifyFunction func change).InStep where
  types := inStep.types
  globals := inStep.globals
  functions := by
    refine inStep.functions.of_names fun position => ?_
    rw [function?, Tables.modifyFunction, Array.getElem?_modify, function?]
    split
    · rw [Option.map_map]
      exact congrArg (Option.map · _) (funext named)
    · rfl

end InStep

end Tables

end TreeLowering.Ir
