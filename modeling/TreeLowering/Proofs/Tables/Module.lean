/-
This file says what a module finds under a name and what each declaration does to it. A search
through an index finds what a search through the table would. A declaration adds an entry under a
new name, gives a reserved struct its fields, or leaves the module as it is; so it does when it is
refused, although the name of a struct is reserved before its fields are compared.
-/

import TreeLowering.Ir.Module

namespace TreeLowering.Ir

/-! ### Searches -/

namespace Tables.Indexes

variable {Entry : Type} {called : Entry → String}

variable {entries : Array Entry} {index : List (String × Nat)} {name : String}

/-- What the index leads to is the entry of the name. -/
theorem bind_eq_some_iff (inStep : Indexes index (fun position => entries[position]?) called)
    {entry : Entry} :
    (index.lookup name).bind (fun position => entries[position]?) = some entry ↔
      entry ∈ entries ∧ called entry = name := by
  rw [Option.bind_eq_some_iff]
  constructor
  · rintro ⟨position, indexed, stored⟩
    obtain ⟨entry', stored', named⟩ := Option.map_eq_some_iff.1 ((inStep name position).1 indexed)
    cases stored.symm.trans stored'
    exact ⟨Array.mem_of_getElem? stored, named⟩
  · rintro ⟨member, rfl⟩
    obtain ⟨position, stored⟩ := Array.mem_iff_getElem?.1 member
    exact ⟨position, (inStep _ position).2 (congrArg (Option.map called) stored), stored⟩

/-- A search through the table finds the same. -/
theorem bind_eq_find? (inStep : Indexes index (fun position => entries[position]?) called)
    (name : String) : (index.lookup name).bind (fun position => entries[position]?) =
      entries.find? fun entry => called entry == name := by
  refine Option.ext fun entry => ?_
  rw [inStep.bind_eq_some_iff]
  constructor
  · rintro ⟨member, named⟩
    cases found : entries.find? fun entry => called entry == name with
    | none => exact absurd (beq_iff_eq.2 named) (Array.find?_eq_none.1 found entry member)
    | some other =>
      have first : called other = name := by simpa using Array.find?_some found
      have same := inStep.bind_eq_some_iff.2 ⟨Array.mem_of_find?_eq_some found, first⟩
      exact same.symm.trans (inStep.bind_eq_some_iff.2 ⟨member, named⟩)
  · intro found
    exact ⟨Array.mem_of_find?_eq_some found, by simpa using Array.find?_some found⟩

/-- A table whose names are indexed has each name once. -/
theorem nodup (inStep : Indexes index (fun position => entries[position]?) called) :
    (entries.toList.map called).Nodup := by
  refine List.pairwise_iff_getElem.2 fun first second inside inside' before same => ?_
  have stored : ∀ {position} (bound : position < (entries.toList.map called).length),
      index.lookup (entries.toList.map called)[position] = some position := by
    intro position bound
    have inside : position < entries.size := by simpa using bound
    refine (inStep _ position).2 ?_
    simp [inside]
  have indexed := stored inside
  rw [same, stored inside'] at indexed
  exact Nat.ne_of_lt before (Option.some.inj indexed).symm

end Tables.Indexes

/-! ### Declarations in tables -/

namespace Tables

theorem modify_push_size {α : Type} (entries : Array α) (last : α) (change : α → α) :
    (entries.push last).modify entries.size change = entries.push (change last) := by
  refine Array.ext_getElem? fun position => ?_
  rw [Array.getElem?_modify, Array.getElem?_push, Array.getElem?_push]
  by_cases here : position = entries.size
  · rw [if_pos here.symm, if_pos here, if_pos here, Option.map_some]
  · rw [if_neg (Ne.symm here), if_neg here, if_neg here]

namespace InStep

variable {tables : Tables}

/-- What declaring a struct does to the tables. -/
theorem declareType_cases (inStep : tables.InStep) (name : String) (fields : List Ty) :
    (tables.typeDef? name = none ∧
      tables.declareType name fields = .ok () (tables.addType ⟨name, some fields⟩)) ∨
    (∃ position, tables.types[position]? = some ⟨name, none⟩ ∧
      tables.typeDef? name = some ⟨name, none⟩ ∧
      tables.declareType name fields = .ok () (tables.setFields position fields)) ∨
    (tables.typeDef? name = some ⟨name, some fields⟩ ∧
      tables.declareType name fields = .ok () tables) ∨
    ∃ existing, tables.typeDef? name = some ⟨name, some existing⟩ ∧ existing ≠ fields ∧
      tables.declareType name fields = .error (.typeConflict name existing fields) tables := by
  rcases Option.eq_none_or_eq_some (tables.typeDef? name) with found | ⟨entry, found⟩
  · -- The name is reserved at the end of the table, and its fields are set there.
    have indexed := inStep.types.lookup_eq_none found
    have reserved : tables.declareName name = tables.addType ⟨name, none⟩ := by
      rw [Tables.declareName, indexed]
    have last : (tables.addType ⟨name, none⟩).types[tables.types.size]? = some ⟨name, none⟩ :=
      Array.getElem?_push_size ..
    have here : (tables.addType ⟨name, none⟩).typeIndex.lookup name = some tables.types.size :=
      List.lookup_cons_self
    refine .inl ⟨found, ?_⟩
    simp only [Tables.declareType, reserved, here, last]
    simp only [Tables.setFields, Tables.addType, modify_push_size]
  · obtain ⟨position, indexed, stored⟩ := Option.bind_eq_some_iff.1 found
    obtain ⟨entry', stored', named⟩ :=
      Option.map_eq_some_iff.1 ((inStep.types name position).1 indexed)
    cases stored.symm.trans stored'
    obtain ⟨called, declared⟩ := entry
    cases named
    have reserved : tables.declareName called = tables := by rw [Tables.declareName, indexed]
    cases declared with
    | none =>
      refine .inr (.inl ⟨position, stored, found, ?_⟩)
      simp only [Tables.declareType, reserved, indexed, stored]
    | some existing =>
      by_cases same : existing = fields
      · subst same
        refine .inr (.inr (.inl ⟨found, ?_⟩))
        simp only [Tables.declareType, reserved, indexed, stored, if_true]
      · refine .inr (.inr (.inr ⟨existing, found, same, ?_⟩))
        simp only [Tables.declareType, reserved, indexed, stored, if_neg same]

end InStep

/-- What declaring a global does to the tables. -/
theorem declareGlobal_cases (tables : Tables) (global : Global) :
    (tables.global? global.name = none ∧
      tables.declareGlobal global = .ok global.address (tables.addGlobal global)) ∨
    (tables.global? global.name = some global ∧
      tables.declareGlobal global = .ok global.address tables) ∨
    ∃ existing, tables.global? global.name = some existing ∧ existing ≠ global ∧
      tables.declareGlobal global = .error (.globalConflict global.name) tables := by
  rcases Option.eq_none_or_eq_some (tables.global? global.name) with found | ⟨existing, found⟩
  · refine .inl ⟨found, ?_⟩
    simp only [Tables.declareGlobal, found]
  · by_cases same : existing = global
    · subst same
      refine .inr (.inl ⟨found, ?_⟩)
      simp only [Tables.declareGlobal, found, if_true]
    · refine .inr (.inr ⟨existing, found, same, ?_⟩)
      simp only [Tables.declareGlobal, found, if_neg same]

section Functions

variable {tables : Tables} {name : String} {params : List Param} {ret : Ty} {func : FuncId}
  {existing : Function}

/-- A function with a new name is added as long as there is room. -/
theorem declareFunction_of_missing (missing : tables.functionId? name = none)
    (room : tables.functions.size < idLimit) :
    tables.declareFunction name params ret = .ok ⟨tables.functions.size⟩
      (tables.addFunction (.declared name params ret)) := by
  simp only [Tables.declareFunction, missing, if_pos room]

theorem declareFunction_of_full (missing : tables.functionId? name = none)
    (full : ¬ tables.functions.size < idLimit) :
    tables.declareFunction name params ret = .error .tooManyFunctions tables := by
  simp only [Tables.declareFunction, missing, if_neg full]

/-- A function of the same name and type is kept. -/
theorem declareFunction_of_same (known : tables.functionId? name = some func)
    (found : tables.function? func = some existing)
    (same : existing.signature = .func (params.map Param.ty) ret) :
    tables.declareFunction name params ret = .ok func tables := by
  simp only [Tables.declareFunction, known, found]
  exact if_pos same

theorem declareFunction_of_differs (known : tables.functionId? name = some func)
    (found : tables.function? func = some existing)
    (differs : existing.signature ≠ .func (params.map Param.ty) ret) :
    tables.declareFunction name params ret =
      .error (.functionConflict name existing.signature (.func (params.map Param.ty) ret))
        tables := by
  simp only [Tables.declareFunction, known, found]
  exact if_neg differs

end Functions

/-- What declaring a function does to the tables. -/
theorem InStep.declareFunction_cases {tables : Tables} (inStep : tables.InStep) (name : String)
    (params : List Param) (ret : Ty) :
    (tables.functionId? name = none ∧ tables.functions.size < idLimit ∧
      tables.declareFunction name params ret = .ok ⟨tables.functions.size⟩
        (tables.addFunction (.declared name params ret))) ∨
    (tables.functionId? name = none ∧ ¬ tables.functions.size < idLimit ∧
      tables.declareFunction name params ret = .error .tooManyFunctions tables) ∨
    ∃ func existing, tables.functionId? name = some func ∧
      tables.function? func = some existing ∧ existing.name = name ∧
      (existing.signature = .func (params.map Param.ty) ret ∧
          tables.declareFunction name params ret = .ok func tables ∨
        existing.signature ≠ .func (params.map Param.ty) ret ∧
          tables.declareFunction name params ret = .error (.functionConflict name
            existing.signature (.func (params.map Param.ty) ret)) tables) := by
  rcases Option.eq_none_or_eq_some (tables.functionId? name) with known | ⟨func, known⟩
  · by_cases room : tables.functions.size < idLimit
    · exact .inl ⟨known, room, declareFunction_of_missing known room⟩
    · exact .inr (.inl ⟨known, room, declareFunction_of_full known room⟩)
  · obtain ⟨existing, found, named⟩ :=
      Option.map_eq_some_iff.1 ((inStep.functions name func).1 known)
    refine .inr (.inr ⟨func, existing, known, found, named, ?_⟩)
    by_cases same : existing.signature = .func (params.map Param.ty) ret
    · exact .inl ⟨same, declareFunction_of_same known found same⟩
    · exact .inr ⟨same, declareFunction_of_differs known found same⟩

end Tables

/-- No two functions have one name. -/
theorem Tables.InStep.functions_nodup {tables : Tables} (inStep : tables.InStep) :
    (tables.functions.toList.map Function.name).Nodup := by
  refine List.pairwise_map.2 (List.pairwise_iff_getElem.2 ?_)
  intro first second bound bound' before named
  have indexed : ∀ {position} (bound : position < tables.functions.toList.length),
      tables.functionId? tables.functions.toList[position].name = some ⟨position⟩ := by
    intro position bound
    have stored : tables.function? ⟨position⟩ = some tables.functions.toList[position] :=
      Array.getElem?_eq_getElem (by simpa using bound)
    exact (inStep.functions _ _).2 (congrArg (Option.map Function.name) stored)
  have same := indexed bound
  rw [named, indexed bound'] at same
  exact Nat.ne_of_lt before (congrArg FuncId.index (Option.some.inj same)).symm

namespace Module

/-- A module is its name and its tables. -/
theorem ext_tables {first second : Module} (tables : first.toTables = second.toTables)
    (name : first.name = second.name) : first = second := by
  cases first
  cases second
  cases tables
  cases name
  rfl

variable {target : Module} {name : String}

theorem typeDef?_eq_some_iff {entry : TypeDef} :
    target.typeDef? name = some entry ↔ entry ∈ target.types ∧ entry.name = name :=
  target.inStep.types.bind_eq_some_iff

theorem global?_eq_some_iff {global : Global} :
    target.global? name = some global ↔ global ∈ target.globals ∧ global.name = name :=
  target.inStep.globals.bind_eq_some_iff

theorem typeDef?_eq_find? (target : Module) (name : String) :
    target.typeDef? name = target.types.find? fun entry => entry.name == name :=
  target.inStep.types.bind_eq_find? name

theorem global?_eq_find? (target : Module) (name : String) :
    target.global? name = target.globals.find? fun entry => entry.name == name :=
  target.inStep.globals.bind_eq_find? name

/-- Functions and globals do not matter to types. -/
theorem structFields?_of_types {first second : Module} (same : second.types = first.types)
    (name : String) : second.structFields? name = first.structFields? name := by
  rw [Tables.structFields?, typeDef?_eq_find?, same, Tables.structFields?, typeDef?_eq_find?]

theorem global?_of_globals {first second : Module} (same : second.globals = first.globals)
    (name : String) : second.global? name = first.global? name := by
  rw [global?_eq_find?, same, global?_eq_find?]

/-- A name stands for the position at which a function has it. -/
theorem functionId?_eq_some_iff {func : FuncId} :
    target.functionId? name = some func ↔
      ∃ function, target.function? func = some function ∧ function.name = name :=
  (target.inStep.functions name func).trans Option.map_eq_some_iff

theorem functionId?_of_found {func : FuncId} {function : Function}
    (found : target.function? func = some function) :
    target.functionId? function.name = some func :=
  functionId?_eq_some_iff.2 ⟨function, found, rfl⟩

/-- No two functions have one name. -/
theorem function?_inj {first second : FuncId} {function function' : Function}
    (found : target.function? first = some function)
    (found' : target.function? second = some function')
    (named : function.name = function'.name) : first = second := by
  have indexed := functionId?_of_found found
  rw [named, functionId?_of_found found'] at indexed
  exact (Option.some.inj indexed).symm

theorem types_nodup (target : Module) : (target.types.toList.map TypeDef.name).Nodup :=
  target.inStep.types.nodup

theorem globals_nodup (target : Module) : (target.globals.toList.map Global.name).Nodup :=
  target.inStep.globals.nodup

theorem functions_nodup (target : Module) : (target.functions.toList.map Function.name).Nodup :=
  target.inStep.functions_nodup

theorem functionByName?_of_found {func : FuncId} {function : Function}
    (found : target.function? func = some function) :
    target.functionByName? function.name = some function := by
  rw [functionByName?, functionId?_of_found found]
  exact found

/-! ### Entries -/

/-- The module with one more struct. -/
def addType (target : Module) (entry : TypeDef) (missing : target.typeDef? entry.name = none) :
    Module :=
  target.withTables (target.toTables.addType entry)
    (target.inStep.addType (target.inStep.types.lookup_eq_none missing))

/-- The module with the fields of one struct. -/
def setFields (target : Module) (position : Nat) (fields : List Ty) : Module :=
  target.withTables (target.toTables.setFields position fields)
    (target.inStep.setFields position fields)

/-- The module with one more global. -/
def addGlobal (target : Module) (global : Global) (missing : target.global? global.name = none) :
    Module :=
  target.withTables (target.toTables.addGlobal global)
    (target.inStep.addGlobal (target.inStep.globals.lookup_eq_none missing))

/-- The module with one more function. -/
def addFunction (target : Module) (function : Function)
    (missing : target.functionId? function.name = none) : Module :=
  target.withTables (target.toTables.addFunction function) (target.inStep.addFunction missing)

theorem typeDef?_addType {entry : TypeDef} (missing : target.typeDef? entry.name = none)
    (name : String) : (target.addType entry missing).typeDef? name =
      (target.typeDef? name).or (if entry.name = name then some entry else none) := by
  have pushed : (target.addType entry missing).types = target.types.push entry := rfl
  rw [typeDef?_eq_find?, typeDef?_eq_find?, pushed, Array.find?_push]
  simp only [beq_iff_eq]

theorem typeDef?_setFields {position : Nat} {called : String}
    (stored : target.types[position]? = some ⟨called, none⟩) (fields : List Ty) (name : String) :
    (target.setFields position fields).typeDef? name =
      if called = name then some ⟨called, some fields⟩ else target.typeDef? name := by
  have step : (target.setFields position fields).typeDef? name =
      (target.typeIndex.lookup name).bind fun found =>
        (target.types.modify position fun entry => { entry with fields := some fields })[found]? :=
    rfl
  have here : target.typeIndex.lookup name = some position ↔ called = name := by
    refine (target.inStep.types name position).trans ?_
    dsimp only
    rw [stored, Option.map_some, Option.some.injEq]
  rw [step]
  by_cases same : called = name
  · rw [if_pos same, here.2 same, Option.bind_some, Array.getElem?_modify, if_pos rfl, stored,
      Option.map_some]
  · rw [if_neg same]
    refine Option.bind_congr fun found indexed => ?_
    have apart : position ≠ found := fun same' => same (here.1 (same' ▸ indexed))
    rw [Array.getElem?_modify, if_neg apart]

theorem global?_addGlobal {global : Global} (missing : target.global? global.name = none)
    (name : String) : (target.addGlobal global missing).global? name =
      (target.global? name).or (if global.name = name then some global else none) := by
  have pushed : (target.addGlobal global missing).globals = target.globals.push global := rfl
  rw [global?_eq_find?, global?_eq_find?, pushed, Array.find?_push]
  simp only [beq_iff_eq]

theorem function?_addFunction {function : Function}
    (missing : target.functionId? function.name = none) (func : FuncId) :
    (target.addFunction function missing).function? func =
      if func.index = target.functions.size then some function else target.function? func :=
  Array.getElem?_push

/-! ### Declarations -/

theorem declareName_of_some {entry : TypeDef} (found : target.typeDef? name = some entry) :
    target.declareName name = target := by
  obtain ⟨position, indexed, _⟩ := Option.bind_eq_some_iff.1 found
  refine ext_tables ?_ rfl
  show target.toTables.declareName name = target.toTables
  rw [Tables.declareName, indexed]

theorem declareName_of_none (missing : target.typeDef? name = none) :
    target.declareName name = target.addType ⟨name, none⟩ missing := by
  refine ext_tables ?_ rfl
  show target.toTables.declareName name = target.toTables.addType ⟨name, none⟩
  rw [Tables.declareName, target.inStep.types.lookup_eq_none missing]

/-- A declaration of the module follows the one of its tables. -/
theorem carry_ok {α : Type} {result : EStateM.Result Error Tables α} {answer : α}
    {tables : Tables} (same : result = .ok answer tables) (inStep : (Tables.after result).InStep)
    (inStep' : tables.InStep) :
    target.carry result inStep = .ok answer (target.withTables tables inStep') := by
  subst same
  rfl

theorem carry_error {α : Type} {result : EStateM.Result Error Tables α} {cause : Error}
    (same : result = .error cause target.toTables) (inStep : (Tables.after result).InStep) :
    target.carry result inStep = .error cause target := by
  subst same
  rfl

theorem carry_same {α : Type} {result : EStateM.Result Error Tables α} {answer : α}
    (same : result = .ok answer target.toTables) (inStep : (Tables.after result).InStep) :
    target.carry result inStep = .ok answer target :=
  carry_ok same inStep target.inStep

/-- What declaring a struct does. -/
theorem declareType_cases (target : Module) (name : String) (fields : List Ty) :
    (∃ missing : target.typeDef? name = none, target.declareType name fields =
      .ok () (target.addType ⟨name, some fields⟩ missing)) ∨
    (∃ position, target.types[position]? = some ⟨name, none⟩ ∧
      target.typeDef? name = some ⟨name, none⟩ ∧
      target.declareType name fields = .ok () (target.setFields position fields)) ∨
    (target.typeDef? name = some ⟨name, some fields⟩ ∧
      target.declareType name fields = .ok () target) ∨
    ∃ existing, target.typeDef? name = some ⟨name, some existing⟩ ∧ existing ≠ fields ∧
      target.declareType name fields = .error (.typeConflict name existing fields) target := by
  rcases target.inStep.declareType_cases name fields with ⟨missing, added⟩ |
    ⟨position, stored, found, filled⟩ | ⟨found, kept⟩ | ⟨existing, found, differs, refused⟩
  · exact .inl ⟨missing, carry_ok added _ _⟩
  · exact .inr (.inl ⟨position, stored, found, carry_ok filled _ _⟩)
  · exact .inr (.inr (.inl ⟨found, carry_same kept _⟩))
  · exact .inr (.inr (.inr ⟨existing, found, differs, carry_error refused _⟩))

theorem declareGlobal_of_missing {global : Global} (missing : target.global? global.name = none) :
    target.declareGlobal global = .ok global.address (target.addGlobal global missing) := by
  refine carry_ok ?_ _ _
  simp only [Tables.declareGlobal, missing]

/-- What declaring a global does. -/
theorem declareGlobal_cases (target : Module) (global : Global) :
    (∃ missing : target.global? global.name = none,
      target.declareGlobal global = .ok global.address (target.addGlobal global missing)) ∨
    (target.global? global.name = some global ∧
      target.declareGlobal global = .ok global.address target) ∨
    ∃ existing, target.global? global.name = some existing ∧ existing ≠ global ∧
      target.declareGlobal global = .error (.globalConflict global.name) target := by
  rcases target.toTables.declareGlobal_cases global with ⟨missing, _⟩ | ⟨found, kept⟩ |
    ⟨existing, found, differs, refused⟩
  · exact .inl ⟨missing, declareGlobal_of_missing missing⟩
  · exact .inr (.inl ⟨found, carry_same kept _⟩)
  · exact .inr (.inr ⟨existing, found, differs, carry_error refused _⟩)

variable {params : List Param} {ret : Ty} {func : FuncId} {existing : Function}

theorem declareFunction_of_missing (missing : target.functionId? name = none)
    (room : target.functions.size < idLimit) :
    target.declareFunction name params ret = .ok ⟨target.functions.size⟩
      (target.addFunction (.declared name params ret) missing) :=
  carry_ok (Tables.declareFunction_of_missing missing room) _ _

theorem declareFunction_of_full (missing : target.functionId? name = none)
    (full : ¬ target.functions.size < idLimit) :
    target.declareFunction name params ret = .error .tooManyFunctions target :=
  carry_error (Tables.declareFunction_of_full missing full) _

theorem declareFunction_of_same (known : target.functionId? name = some func)
    (found : target.function? func = some existing)
    (same : existing.signature = .func (params.map Param.ty) ret) :
    target.declareFunction name params ret = .ok func target :=
  carry_same (Tables.declareFunction_of_same known found same) _

theorem declareFunction_of_differs (known : target.functionId? name = some func)
    (found : target.function? func = some existing)
    (differs : existing.signature ≠ .func (params.map Param.ty) ret) :
    target.declareFunction name params ret =
      .error (.functionConflict name existing.signature (.func (params.map Param.ty) ret))
        target :=
  carry_error (Tables.declareFunction_of_differs known found differs) _

/-- What declaring a function does. -/
theorem declareFunction_cases (target : Module) (name : String) (params : List Param) (ret : Ty) :
    (∃ missing : target.functionId? name = none, target.functions.size < idLimit ∧
      target.declareFunction name params ret = .ok ⟨target.functions.size⟩
        (target.addFunction (.declared name params ret) missing)) ∨
    (target.functionId? name = none ∧ ¬ target.functions.size < idLimit ∧
      target.declareFunction name params ret = .error .tooManyFunctions target) ∨
    ∃ func existing, target.functionId? name = some func ∧
      target.function? func = some existing ∧ existing.name = name ∧
      (existing.signature = .func (params.map Param.ty) ret ∧
          target.declareFunction name params ret = .ok func target ∨
        existing.signature ≠ .func (params.map Param.ty) ret ∧
          target.declareFunction name params ret = .error (.functionConflict name
            existing.signature (.func (params.map Param.ty) ret)) target) := by
  rcases target.inStep.declareFunction_cases name params ret with ⟨missing, room, added⟩ |
    ⟨missing, full, refused⟩ | ⟨func, existing, known, found, named, same | differs⟩
  · exact .inl ⟨missing, room, carry_ok added _ _⟩
  · exact .inr (.inl ⟨missing, full, carry_error refused _⟩)
  · exact .inr (.inr ⟨func, existing, known, found, named, .inl ⟨same.1, carry_same same.2 _⟩⟩)
  · exact .inr (.inr
      ⟨func, existing, known, found, named, .inr ⟨differs.1, carry_error differs.2 _⟩⟩)

variable {second : Module} {fields : List Ty} {global : Global} {address : Value} {cause : Error}

theorem declareType_ok (declared : target.declareType name fields = .ok () second) :
    (∃ missing : target.typeDef? name = none,
      second = target.addType ⟨name, some fields⟩ missing) ∨
    (∃ position, target.types[position]? = some ⟨name, none⟩ ∧
      target.typeDef? name = some ⟨name, none⟩ ∧ second = target.setFields position fields) ∨
    (target.typeDef? name = some ⟨name, some fields⟩ ∧ second = target) := by
  rcases target.declareType_cases name fields with ⟨missing, added⟩ |
    ⟨position, stored, found, filled⟩ | ⟨found, kept⟩ | ⟨_, _, _, refused⟩
  · cases added.symm.trans declared
    exact .inl ⟨missing, rfl⟩
  · cases filled.symm.trans declared
    exact .inr (.inl ⟨position, stored, found, rfl⟩)
  · cases kept.symm.trans declared
    exact .inr (.inr ⟨found, rfl⟩)
  · cases refused.symm.trans declared

theorem declareType_error (refused : target.declareType name fields = .error cause second) :
    second = target ∧ ∃ existing, target.typeDef? name = some ⟨name, some existing⟩ ∧
      existing ≠ fields ∧ cause = .typeConflict name existing fields := by
  rcases target.declareType_cases name fields with ⟨_, added⟩ | ⟨_, _, _, filled⟩ | ⟨_, kept⟩ |
    ⟨existing, found, differs, refused'⟩
  · cases added.symm.trans refused
  · cases filled.symm.trans refused
  · cases kept.symm.trans refused
  · cases refused'.symm.trans refused
    exact ⟨rfl, existing, found, differs, rfl⟩

theorem declareGlobal_ok (declared : target.declareGlobal global = .ok address second) :
    address = global.address ∧
      ((∃ missing : target.global? global.name = none, second = target.addGlobal global missing) ∨
        (target.global? global.name = some global ∧ second = target)) := by
  rcases target.declareGlobal_cases global with ⟨missing, added⟩ | ⟨found, kept⟩ |
    ⟨_, _, _, refused⟩
  · cases added.symm.trans declared
    exact ⟨rfl, .inl ⟨missing, rfl⟩⟩
  · cases kept.symm.trans declared
    exact ⟨rfl, .inr ⟨found, rfl⟩⟩
  · cases refused.symm.trans declared

theorem declareGlobal_error (refused : target.declareGlobal global = .error cause second) :
    second = target ∧ ∃ existing, target.global? global.name = some existing ∧
      existing ≠ global ∧ cause = .globalConflict global.name := by
  rcases target.declareGlobal_cases global with ⟨_, added⟩ | ⟨_, kept⟩ |
    ⟨existing, found, differs, refused'⟩
  · cases added.symm.trans refused
  · cases kept.symm.trans refused
  · cases refused'.symm.trans refused
    exact ⟨rfl, existing, found, differs, rfl⟩

theorem declareFunction_ok (declared : target.declareFunction name params ret = .ok func second) :
    (∃ missing : target.functionId? name = none, func = ⟨target.functions.size⟩ ∧
      second = target.addFunction (.declared name params ret) missing) ∨
    (second = target ∧ target.functionId? name = some func ∧
      ∃ existing, target.function? func = some existing ∧ existing.name = name ∧
        existing.signature = .func (params.map Param.ty) ret) := by
  rcases target.declareFunction_cases name params ret with ⟨missing, _, added⟩ | ⟨_, _, refused⟩ |
    ⟨known, existing, indexed, found, named, ⟨same, kept⟩ | ⟨_, refused⟩⟩
  · cases added.symm.trans declared
    exact .inl ⟨missing, rfl, rfl⟩
  · cases refused.symm.trans declared
  · cases kept.symm.trans declared
    exact .inr ⟨rfl, indexed, existing, found, named, same⟩
  · cases refused.symm.trans declared

theorem declareFunction_error
    (refused : target.declareFunction name params ret = .error cause second) :
    second = target ∧
      ((target.functionId? name = none ∧ ¬ target.functions.size < idLimit ∧
        cause = .tooManyFunctions) ∨
      ∃ func existing, target.functionId? name = some func ∧
        target.function? func = some existing ∧
        existing.signature ≠ .func (params.map Param.ty) ret ∧
        cause = .functionConflict name existing.signature (.func (params.map Param.ty) ret)) := by
  rcases target.declareFunction_cases name params ret with ⟨_, _, added⟩ | ⟨missing, full, refused'⟩ |
    ⟨func, existing, indexed, found, _, ⟨_, kept⟩ | ⟨differs, refused'⟩⟩
  · cases added.symm.trans refused
  · cases refused'.symm.trans refused
    exact ⟨rfl, .inl ⟨missing, full, rfl⟩⟩
  · cases kept.symm.trans refused
  · cases refused'.symm.trans refused
    exact ⟨rfl, .inr ⟨func, existing, indexed, found, differs, rfl⟩⟩

/-- Functions are declared apart from types and globals. -/
theorem declareFunction_elsewhere
    (declared : target.declareFunction name params ret = .ok func second) :
    second.types = target.types ∧ second.globals = target.globals := by
  rcases declareFunction_ok declared with ⟨_, _, rfl⟩ | ⟨rfl, _⟩ <;> exact ⟨rfl, rfl⟩

/-- Globals are declared apart from types and functions. -/
theorem declareGlobal_elsewhere (declared : target.declareGlobal global = .ok address second) :
    second.types = target.types ∧ second.functions = target.functions := by
  obtain ⟨-, ⟨_, rfl⟩ | ⟨_, rfl⟩⟩ := declareGlobal_ok declared <;> exact ⟨rfl, rfl⟩

end Module

end TreeLowering.Ir
