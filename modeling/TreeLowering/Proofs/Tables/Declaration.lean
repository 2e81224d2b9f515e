/-
This file proves the laws of the tables of a module. Each name stands once in its table, and a
search by name finds the entry where it stands. No later declaration moves an entry: a struct keeps
its fields once it has them, globals and functions stay as they are. So a declaration that was
accepted is accepted again with the same answer and changes nothing, and one is refused only because
of an entry of its name that has another shape.

A run is told as the tables go through it, from any tables whose indexes are in step. Nothing is
taken back when a declaration is refused, so that the tables are as before has to be proved.
-/

import TreeLowering.Proofs.Tables.Ledger

namespace TreeLowering.Ir

/-! ### Declarations -/

/-- What can be declared. -/
inductive Declaration where
  /-- A struct whose fields come later. -/
  | name (name : String)
  | struct (name : String) (fields : List Ty)
  | global (global : Global)
  | function (name : String) (params : List Param) (ret : Ty)

/-- What is handed out for a declaration. -/
inductive Handle where
  | nothing
  | address (value : Value)
  | position (func : FuncId)
deriving DecidableEq

/-- The two ask for the same. The names of a function's parameters do not matter. -/
inductive Declaration.Repeats : Declaration → Declaration → Prop
  | same (declaration : Declaration) : Repeats declaration declaration
  | renamed {name : String} {params params' : List Param} {ret : Ty}
      (types : params'.map Param.ty = params.map Param.ty) :
      Repeats (.function name params ret) (.function name params' ret)

/-- The same end with another answer. -/
def answering {σ α β : Type} (change : α → β) :
    EStateM.Result Error σ α → EStateM.Result Error σ β
  | .ok answer after => .ok (change answer) after
  | .error cause after => .error cause after

namespace Tables

/-- Declares what is asked for. -/
def declare (tables : Tables) : Declaration → EStateM.Result Error Tables Handle
  | .name name => .ok .nothing (tables.declareName name)
  | .struct name fields => answering (fun _ => .nothing) (tables.declareType name fields)
  | .global global => answering .address (tables.declareGlobal global)
  | .function name params ret => answering .position (tables.declareFunction name params ret)

/-- The tables after some declarations, any of which may be refused. -/
def declareAll (tables : Tables) (declarations : List Declaration) : Tables :=
  declarations.foldl (fun tables declaration => after (tables.declare declaration)) tables

/-- No two entries of one table have one name. -/
structure Apart (tables : Tables) : Prop where
  types : (tables.types.toList.map TypeDef.name).Nodup
  globals : (tables.globals.toList.map Global.name).Nodup
  functions : (tables.functions.toList.map Function.name).Nodup

/-- A search by name finds just the entry that has the name, where it stands. -/
structure Indexed (tables : Tables) : Prop where
  types : ∀ name entry, tables.typeDef? name = some entry ↔
    ∃ position : Nat, tables.types[position]? = some entry ∧ entry.name = name
  globals : ∀ name global, tables.global? name = some global ↔
    ∃ position : Nat, tables.globals[position]? = some global ∧ global.name = name
  functions : ∀ name func, tables.functionId? name = some func ↔
    ∃ function, tables.function? func = some function ∧ function.name = name

/-- What the first tables have stands at the same place in the second ones. Only a struct that lacks
its fields may have got them. -/
structure Endures (first second : Tables) : Prop where
  types : ∀ (position : Nat) (entry : TypeDef), first.types[position]? = some entry →
    ∃ entry' : TypeDef, second.types[position]? = some entry' ∧ entry'.name = entry.name ∧
      (entry.fields = none ∨ entry' = entry)
  globals : ∀ (position : Nat) (global : Global), first.globals[position]? = some global →
    second.globals[position]? = some global
  functions : ∀ func function, first.function? func = some function →
    second.function? func = some function

/-- The tables have what was declared, and what was handed out for it stands for that entry. -/
inductive Honours (tables : Tables) : Declaration → Handle → Prop
  | name {name : String} {entry : TypeDef} (found : tables.typeDef? name = some entry) :
      Honours tables (.name name) .nothing
  | struct {name : String} {fields : List Ty} (found : tables.structFields? name = some fields) :
      Honours tables (.struct name fields) .nothing
  | global {global : Global} (found : tables.global? global.name = some global) :
      Honours tables (.global global) (.address global.address)
  | function {name : String} {params : List Param} {ret : Ty} {func : FuncId}
      {function : Function} (known : tables.functionId? name = some func)
      (found : tables.function? func = some function)
      (bears : function.Bears name (.func (params.map Param.ty) ret)) :
      Honours tables (.function name params ret) (.position func)

/-- An entry of the same name is complete and has another shape. -/
inductive Refuses (tables : Tables) : Declaration → Error → Prop
  | struct {name : String} {existing fields : List Ty}
      (listed : TypeDef.mk name (some existing) ∈ tables.types) (differs : existing ≠ fields) :
      Refuses tables (.struct name fields) (.typeConflict name existing fields)
  | global {existing global : Global} (listed : existing ∈ tables.globals)
      (named : existing.name = global.name) (differs : existing ≠ global) :
      Refuses tables (.global global) (.globalConflict global.name)
  | function {existing : Function} {name : String} {params : List Param} {ret : Ty}
      (listed : existing ∈ tables.functions) (named : existing.name = name)
      (differs : existing.signature ≠ .func (params.map Param.ty) ret) :
      Refuses tables (.function name params ret)
        (.functionConflict name existing.signature (.func (params.map Param.ty) ret))

variable {tables second third : Tables} {declaration : Declaration} {handle : Handle}
  {cause : Error}

/-! ### Names -/

theorem after_answering {α β : Type} (change : α → β) (result : EStateM.Result Error Tables α) :
    after (answering change result) = after result := by
  cases result <;> rfl

theorem InStep.declare (inStep : tables.InStep) (declaration : Declaration) :
    (after (tables.declare declaration)).InStep := by
  cases declaration with
  | name name => exact inStep.declareName name
  | struct name fields =>
    rw [Tables.declare, after_answering]
    exact inStep.declareType name fields
  | global global =>
    rw [Tables.declare, after_answering]
    exact inStep.declareGlobal global
  | function name params ret =>
    rw [Tables.declare, after_answering]
    exact inStep.declareFunction name params ret

/-- Indexes stay in step in a run of declarations. -/
theorem InStep.declareAll (inStep : tables.InStep) (declarations : List Declaration) :
    (tables.declareAll declarations).InStep := by
  induction declarations generalizing tables with
  | nil => exact inStep
  | cons declaration rest inductionHypothesis =>
    exact inductionHypothesis (inStep.declare declaration)

/-- Where every index is in step with its table, a search finds what the table has. -/
theorem InStep.indexed (inStep : tables.InStep) : tables.Indexed where
  types name entry := by
    refine inStep.types.bind_eq_some_iff.trans ?_
    rw [Array.mem_iff_getElem?, exists_and_right]
  globals name global := by
    refine inStep.globals.bind_eq_some_iff.trans ?_
    rw [Array.mem_iff_getElem?, exists_and_right]
  functions name func := (inStep.functions name func).trans Option.map_eq_some_iff

theorem InStep.apart (inStep : tables.InStep) : tables.Apart :=
  ⟨inStep.types.nodup, inStep.globals.nodup, inStep.functions_nodup⟩

/-! ### What lasts -/

theorem Endures.refl (tables : Tables) : tables.Endures tables :=
  ⟨fun _ entry stored => ⟨entry, stored, rfl, .inr rfl⟩, fun _ _ => id, fun _ _ => id⟩

theorem Endures.trans (earlier : tables.Endures second) (later : second.Endures third) :
    tables.Endures third := by
  refine ⟨fun position entry stored => ?_, fun position global stored =>
    later.globals position global (earlier.globals position global stored),
    fun func function found => later.functions func function (earlier.functions func function found)⟩
  obtain ⟨entry', stored', named, same⟩ := earlier.types position entry stored
  obtain ⟨entry'', stored'', named', same'⟩ := later.types position entry' stored'
  refine ⟨entry'', stored'', named'.trans named, ?_⟩
  rcases same with bare | rfl
  · exact .inl bare
  · exact same'

/-- An entry is found where it was when another one comes behind it. -/
theorem getElem?_push_of_some {α : Type} {entries : Array α} {position : Nat} {entry : α}
    (stored : entries[position]? = some entry) (last : α) :
    (entries.push last)[position]? = some entry := by
  obtain ⟨bound, rfl⟩ := Array.getElem?_eq_some_iff.1 stored
  rw [Array.getElem?_push_lt bound]

theorem endures_addType (tables : Tables) (entry : TypeDef) :
    tables.Endures (tables.addType entry) :=
  ⟨fun _ found stored => ⟨found, getElem?_push_of_some stored entry, rfl, .inr rfl⟩,
    fun _ _ => id, fun _ _ => id⟩

theorem endures_addGlobal (tables : Tables) (global : Global) :
    tables.Endures (tables.addGlobal global) :=
  ⟨fun _ entry stored => ⟨entry, stored, rfl, .inr rfl⟩,
    fun _ _ stored => getElem?_push_of_some stored global, fun _ _ => id⟩

theorem endures_addFunction (tables : Tables) (function : Function) :
    tables.Endures (tables.addFunction function) :=
  ⟨fun _ entry stored => ⟨entry, stored, rfl, .inr rfl⟩, fun _ _ => id,
    fun _ _ stored => getElem?_push_of_some stored function⟩

/-- Fields are only set where there were none. -/
theorem endures_setFields {position : Nat} {called : String}
    (reserved : tables.types[position]? = some ⟨called, none⟩) (fields : List Ty) :
    tables.Endures (tables.setFields position fields) := by
  refine ⟨fun position' entry stored => ?_, fun _ _ => id, fun _ _ => id⟩
  rw [setFields, Array.getElem?_modify, stored]
  by_cases here : position = position'
  · subst here
    cases reserved.symm.trans stored
    exact ⟨⟨called, some fields⟩, by simp, rfl, .inl rfl⟩
  · exact ⟨entry, by rw [if_neg here], rfl, .inr rfl⟩

/-! ### What is honoured -/

namespace Indexed

theorem honours_name (indexed : tables.Indexed) {position : Nat} {entry : TypeDef}
    (stored : tables.types[position]? = some entry) :
    tables.Honours (.name entry.name) .nothing :=
  .name ((indexed.types _ _).2 ⟨position, stored, rfl⟩)

theorem honours_struct (indexed : tables.Indexed) {position : Nat} {name : String}
    {fields : List Ty} (stored : tables.types[position]? = some ⟨name, some fields⟩) :
    tables.Honours (.struct name fields) .nothing :=
  .struct (Option.bind_eq_some_iff.2 ⟨_, (indexed.types _ _).2 ⟨position, stored, rfl⟩, rfl⟩)

theorem honours_global (indexed : tables.Indexed) {position : Nat} {global : Global}
    (stored : tables.globals[position]? = some global) :
    tables.Honours (.global global) (.address global.address) :=
  .global ((indexed.globals _ _).2 ⟨position, stored, rfl⟩)

theorem honours_function (indexed : tables.Indexed) {func : FuncId} {function : Function}
    {name : String} {params : List Param} {ret : Ty}
    (found : tables.function? func = some function)
    (bears : function.Bears name (.func (params.map Param.ty) ret)) :
    tables.Honours (.function name params ret) (.position func) :=
  .function ((indexed.functions _ _).2 ⟨function, found, bears.1⟩) found bears

theorem mem_of_honours (indexed : tables.Indexed) {name : String} {fields : List Ty}
    (honours : tables.Honours (.struct name fields) handle) :
    TypeDef.mk name (some fields) ∈ tables.types := by
  cases honours with
  | struct found =>
    obtain ⟨⟨called, fields⟩, found, rfl⟩ := Option.bind_eq_some_iff.1 found
    obtain ⟨position, stored, rfl⟩ := (indexed.types _ _).1 found
    exact Array.mem_of_getElem? stored

end Indexed

/-- What is handed out stands for the same entry for good. -/
theorem Honours.endures (honours : tables.Honours declaration handle)
    (endures : tables.Endures second) (indexed : tables.Indexed) (indexed' : second.Indexed) :
    second.Honours declaration handle := by
  cases honours with
  | name found =>
    obtain ⟨position, stored, rfl⟩ := (indexed.types _ _).1 found
    obtain ⟨entry', stored', named, _⟩ := endures.types position _ stored
    exact named ▸ indexed'.honours_name stored'
  | struct found =>
    obtain ⟨⟨called, fields⟩, found, rfl⟩ := Option.bind_eq_some_iff.1 found
    obtain ⟨position, stored, rfl⟩ := (indexed.types _ _).1 found
    obtain ⟨entry', stored', _, bare | rfl⟩ := endures.types position _ stored
    · cases bare
    · exact indexed'.honours_struct stored'
  | global found =>
    obtain ⟨position, stored, _⟩ := (indexed.globals _ _).1 found
    exact indexed'.honours_global (endures.globals position _ stored)
  | function _ found bears =>
    exact indexed'.honours_function (endures.functions _ _ found) bears

/-- A declaration that is honoured is accepted again and changes nothing. -/
theorem InStep.declare_again (inStep : tables.InStep)
    (honours : tables.Honours declaration handle) {again : Declaration}
    (repeats : declaration.Repeats again) : tables.declare again = .ok handle tables := by
  cases honours with
  | name found =>
    cases repeats
    obtain ⟨position, known, _⟩ := Option.bind_eq_some_iff.1 found
    rw [Tables.declare, Tables.declareName, known]
  | @struct _ fields found =>
    cases repeats
    obtain ⟨⟨called, _⟩, found, given⟩ := Option.bind_eq_some_iff.1 found
    cases given
    obtain ⟨position, stored, rfl⟩ := (inStep.indexed.types _ _).1 found
    rw [Tables.declare]
    rcases inStep.declareType_cases called fields with ⟨missing, _⟩ | ⟨_, _, bare, _⟩ |
      ⟨_, kept⟩ | ⟨_, other, differs, _⟩
    · cases missing.symm.trans found
    · cases bare.symm.trans found
    · rw [kept]
      rfl
    · cases other.symm.trans found
      exact absurd rfl differs
  | global found =>
    cases repeats
    simp only [Tables.declare, Tables.declareGlobal, found, if_true]
    rfl
  | @function called params ret func function known found bears =>
    have accepted : ∀ params' : List Param, params'.map Param.ty = params.map Param.ty →
        tables.declare (.function called params' ret) = .ok (.position func) tables := by
      intro params' types
      have signed : function.signature = .func (params'.map Param.ty) ret := types ▸ bears.2
      rw [Tables.declare, declareFunction_of_same known found signed]
      rfl
    cases repeats with
    | same => exact accepted _ rfl
    | renamed types => exact accepted _ types

/-! ### What one declaration does -/

/-- A declaration is accepted, and then honoured, with all that was there in its place; or it is
refused and leaves the tables as they were, and unless there are too many functions, an entry of its
name is to blame. -/
theorem InStep.declare_cases (inStep : tables.InStep) (declaration : Declaration) :
    (∃ handle second, tables.declare declaration = .ok handle second ∧
      tables.Endures second ∧ second.Honours declaration handle) ∨
    ∃ cause, tables.declare declaration = .error cause tables ∧
      (tables.functions.size < idLimit → tables.Refuses declaration cause) := by
  have indexed := (inStep.declare declaration).indexed
  cases declaration with
  | name name =>
    refine .inl ⟨.nothing, tables.declareName name, rfl, ?_⟩
    replace indexed : (tables.declareName name).Indexed := indexed
    unfold Tables.declareName at indexed ⊢
    split
    · next position known =>
      rw [known] at indexed
      obtain ⟨entry, stored, rfl⟩ :=
        Option.map_eq_some_iff.1 ((inStep.types name position).1 known)
      exact ⟨.refl tables, indexed.honours_name stored⟩
    · next missing =>
      rw [missing] at indexed
      exact ⟨tables.endures_addType ⟨name, none⟩,
        @indexed.honours_name _ _ ⟨name, none⟩ (Array.getElem?_push_size ..)⟩
  | struct name fields =>
    rw [Tables.declare] at indexed ⊢
    rcases inStep.declareType_cases name fields with ⟨_, added⟩ | ⟨position, reserved, _, filled⟩ |
      ⟨found, kept⟩ | ⟨existing, found, differs, refused⟩
    · rw [added] at indexed ⊢
      exact .inl ⟨_, _, rfl, tables.endures_addType ⟨name, some fields⟩,
        indexed.honours_struct (Array.getElem?_push_size ..)⟩
    · rw [filled] at indexed ⊢
      have given : (tables.setFields position fields).types[position]? =
          some ⟨name, some fields⟩ := by
        rw [Tables.setFields, Array.getElem?_modify, if_pos rfl, reserved, Option.map_some]
      exact .inl ⟨_, _, rfl, endures_setFields reserved fields, indexed.honours_struct given⟩
    · rw [kept] at indexed ⊢
      obtain ⟨position, stored, _⟩ := (indexed.types _ _).1 found
      exact .inl ⟨_, _, rfl, .refl tables, indexed.honours_struct stored⟩
    · rw [refused]
      obtain ⟨position, stored, _⟩ := (inStep.indexed.types _ _).1 found
      exact .inr ⟨_, rfl, fun _ => .struct (Array.mem_of_getElem? stored) differs⟩
  | global global =>
    rw [Tables.declare] at indexed ⊢
    rcases tables.declareGlobal_cases global with ⟨_, added⟩ | ⟨found, kept⟩ |
      ⟨existing, found, differs, refused⟩
    · rw [added] at indexed ⊢
      exact .inl ⟨_, _, rfl, tables.endures_addGlobal global,
        indexed.honours_global (Array.getElem?_push_size ..)⟩
    · rw [kept]
      exact .inl ⟨_, _, rfl, .refl tables, .global found⟩
    · rw [refused]
      obtain ⟨position, stored, named⟩ := (inStep.indexed.globals _ _).1 found
      exact .inr ⟨_, rfl, fun _ => .global (Array.mem_of_getElem? stored) named differs⟩
  | function name params ret =>
    rw [Tables.declare] at indexed ⊢
    rcases inStep.declareFunction_cases name params ret with ⟨_, _, added⟩ | ⟨_, full, refused⟩ |
      ⟨func, existing, _, found, named, ⟨signed, kept⟩ | ⟨differs, refused⟩⟩
    · rw [added] at indexed ⊢
      exact .inl ⟨_, _, rfl, tables.endures_addFunction (.declared name params ret),
        indexed.honours_function (Array.getElem?_push_size ..) ⟨rfl, rfl⟩⟩
    · rw [refused]
      exact .inr ⟨_, rfl, fun room => absurd room full⟩
    · rw [kept]
      exact .inl ⟨_, _, rfl, .refl tables, inStep.indexed.honours_function found ⟨named, signed⟩⟩
    · rw [refused]
      exact .inr ⟨_, rfl, fun _ => .function (Array.mem_of_getElem? found) named differs⟩

/-- There is one entry to blame. -/
theorem Refuses.unique (refuses : tables.Refuses declaration cause) {cause' : Error}
    (refuses' : tables.Refuses declaration cause') (indexed : tables.Indexed) : cause = cause' := by
  cases refuses with
  | struct listed =>
    obtain ⟨position, stored⟩ := Array.mem_iff_getElem?.1 listed
    cases refuses' with
    | struct listed' =>
      obtain ⟨position', stored'⟩ := Array.mem_iff_getElem?.1 listed'
      have known := (indexed.types _ _).2 ⟨position, stored, rfl⟩
      cases known.symm.trans ((indexed.types _ _).2 ⟨position', stored', rfl⟩)
      rfl
  | global =>
    cases refuses'
    rfl
  | function listed named =>
    obtain ⟨index, stored⟩ := Array.mem_iff_getElem?.1 listed
    cases refuses' with
    | function listed' named' =>
      obtain ⟨index', stored'⟩ := Array.mem_iff_getElem?.1 listed'
      have known := (indexed.functions _ ⟨index⟩).2 ⟨_, stored, named⟩
      cases known.symm.trans ((indexed.functions _ ⟨index'⟩).2 ⟨_, stored', named'⟩)
      cases stored.symm.trans stored'
      rfl

/-- An entry of another shape is not honoured. -/
theorem Refuses.not_honoured (refuses : tables.Refuses declaration cause)
    (indexed : tables.Indexed) : ¬ tables.Honours declaration handle := by
  intro honours
  cases refuses with
  | struct listed differs =>
    obtain ⟨position, stored⟩ := Array.mem_iff_getElem?.1 listed
    have known := (indexed.types _ _).2 ⟨position, stored, rfl⟩
    cases honours with
    | struct found =>
      obtain ⟨entry, found, given⟩ := Option.bind_eq_some_iff.1 found
      cases known.symm.trans found
      exact differs (Option.some.inj given)
  | global listed named differs =>
    obtain ⟨position, stored⟩ := Array.mem_iff_getElem?.1 listed
    have known := (indexed.globals _ _).2 ⟨position, stored, named⟩
    cases honours with
    | global found => exact differs (Option.some.inj (known.symm.trans found))
  | function listed named differs =>
    obtain ⟨index, stored⟩ := Array.mem_iff_getElem?.1 listed
    have known := (indexed.functions _ ⟨index⟩).2 ⟨_, stored, named⟩
    cases honours with
    | function known' found bears =>
      cases known.symm.trans known'
      cases found.symm.trans stored
      exact differs bears.2

/-- What refuses a declaration refuses it for good. -/
theorem Refuses.endures (refuses : tables.Refuses declaration cause)
    (endures : tables.Endures second) : second.Refuses declaration cause := by
  cases refuses with
  | struct listed differs =>
    obtain ⟨position, stored⟩ := Array.mem_iff_getElem?.1 listed
    obtain ⟨entry', stored', _, bare | rfl⟩ := endures.types position _ stored
    · cases bare
    · exact .struct (Array.mem_of_getElem? stored') differs
  | global listed named differs =>
    obtain ⟨position, stored⟩ := Array.mem_iff_getElem?.1 listed
    exact .global (Array.mem_of_getElem? (endures.globals position _ stored)) named differs
  | function listed named differs =>
    obtain ⟨index, stored⟩ := Array.mem_iff_getElem?.1 listed
    exact .function (Array.mem_of_getElem? (endures.functions ⟨index⟩ _ stored)) named differs

/-- As long as there is room for functions, a declaration is refused just because of an entry of its
name that is complete and has another shape. -/
theorem InStep.declare_eq_error_iff (inStep : tables.InStep)
    (room : tables.functions.size < idLimit) :
    tables.declare declaration = .error cause (after (tables.declare declaration)) ↔
      tables.Refuses declaration cause := by
  rcases inStep.declare_cases declaration with ⟨handle, second, accepted, endures, honours⟩ |
    ⟨cause', refused, blamed⟩
  · have indexed : second.Indexed := by
      have later := (inStep.declare declaration).indexed
      rwa [accepted] at later
    rw [accepted]
    exact ⟨nofun, fun refuses => absurd honours ((refuses.endures endures).not_honoured indexed)⟩
  · rw [refused]
    refine ⟨fun same => ?_, fun refuses => ?_⟩
    · cases same
      exact blamed room
    · have same : cause' = cause := (blamed room).unique refuses inStep.indexed
      rw [same]
      rfl

/-- No declaration moves or changes what is there, whether it is accepted or not. -/
theorem InStep.endures_declare (inStep : tables.InStep) (declaration : Declaration) :
    tables.Endures (after (tables.declare declaration)) := by
  rcases inStep.declare_cases declaration with ⟨_, _, accepted, endures, _⟩ | ⟨_, refused, _⟩
  · rw [accepted]
    exact endures
  · rw [refused]
    exact .refl tables

/-- Nor does a run of declarations. -/
theorem InStep.endures_declareAll (inStep : tables.InStep) (declarations : List Declaration) :
    tables.Endures (tables.declareAll declarations) := by
  induction declarations generalizing tables with
  | nil => exact .refl tables
  | cons declaration rest inductionHypothesis =>
    exact (inStep.endures_declare declaration).trans
      (inductionHypothesis (inStep.declare declaration))

/-! ### Runs -/

/-- The laws of the tables. In every run of declarations every index stays in step with its table,
names stay apart and are found where they stand, and nothing that is there is moved or changed. A
declaration that is accepted is honoured for good, and accepted again with the same answer at any
later time; one that is refused changes nothing. As long as there is room for functions, it is
refused just because of an entry of its name that is complete and has another shape. -/
theorem declarations_last {start : Tables} (inStep : start.InStep) (earlier : List Declaration)
    (declaration : Declaration) (later : List Declaration) :
    let before := start.declareAll earlier
    let here := after (before.declare declaration)
    let last := here.declareAll later
    last.InStep ∧ last.Apart ∧ last.Indexed ∧ here.Endures last ∧
      (∀ handle, before.declare declaration = .ok handle here →
        last.Honours declaration handle ∧
          ∀ again, declaration.Repeats again → last.declare again = .ok handle last) ∧
      (∀ cause, before.declare declaration = .error cause here → here = before) ∧
      (before.functions.size < idLimit → ∀ cause,
        before.declare declaration = .error cause here ↔ before.Refuses declaration cause) := by
  intro before here last
  have inStep : before.InStep := inStep.declareAll earlier
  have inStep' : here.InStep := inStep.declare declaration
  have inStep'' : last.InStep := inStep'.declareAll later
  have endures : here.Endures last := inStep'.endures_declareAll later
  refine ⟨inStep'', inStep''.apart, inStep''.indexed, endures, fun handle accepted => ?_,
    fun cause refused => ?_, fun room cause => inStep.declare_eq_error_iff room⟩
  · rcases inStep.declare_cases declaration with ⟨_, _, accepted', _, honours⟩ | ⟨_, refused, _⟩
    · cases accepted'.symm.trans accepted
      have honours := honours.endures endures inStep'.indexed inStep''.indexed
      exact ⟨honours, fun again => inStep''.declare_again honours⟩
    · cases refused.symm.trans accepted
  · rcases inStep.declare_cases declaration with ⟨_, _, accepted, _⟩ | ⟨_, refused', _⟩
    · cases accepted.symm.trans refused
    · exact ((EStateM.Result.error.inj (refused'.symm.trans refused)).2).symm

/-- A struct `Pair` that is named first gets its fields. Other fields are refused afterwards, and
the same ones are accepted again. -/
theorem pair_declarations_last :
    let before := Tables.empty.declareAll [.name "Pair", .function "f" [⟨"x", .i32⟩] .unit]
    let here := after (before.declare (.struct "Pair" [.i32, .u8]))
    let last := here.declareAll [.struct "Pair" [.bool], .function "f" [⟨"y", .i32⟩] .unit,
      .global ⟨"Pair", .u8, .bytes []⟩, .function "f" [] .unit]
    Tables.empty.InStep ∧ last.Indexed ∧
      before.declare (.struct "Pair" [.i32, .u8]) = .ok .nothing here ∧
      last.Honours (.struct "Pair" [.i32, .u8]) .nothing ∧
      last.declare (.struct "Pair" [.i32, .u8]) = .ok .nothing last ∧
      last.Refuses (.struct "Pair" [.bool]) (.typeConflict "Pair" [.i32, .u8] [.bool]) := by
  intro before here last
  have accepted : before.declare (.struct "Pair" [.i32, .u8]) = .ok .nothing here := by
    subst here before
    cbv
  obtain ⟨_, _, indexed, _, honoured, _⟩ := declarations_last .empty
    [.name "Pair", .function "f" [⟨"x", .i32⟩] .unit] (.struct "Pair" [.i32, .u8])
    [.struct "Pair" [.bool], .function "f" [⟨"y", .i32⟩] .unit,
      .global ⟨"Pair", .u8, .bytes []⟩, .function "f" [] .unit]
  obtain ⟨honours, again⟩ := honoured _ accepted
  refine ⟨.empty, indexed, accepted, honours, again _ (.same _), ?_⟩
  exact .struct (indexed.mem_of_honours honours) (by decide)

end Tables

end TreeLowering.Ir
