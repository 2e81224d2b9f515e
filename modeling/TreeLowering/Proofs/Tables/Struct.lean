/-
This file proves that the table of struct types stays neat. An entry lacks its fields only while
these are being mapped: its name is reserved when the mapping of its
fields starts, and the declaration behind the fields finds that very entry and fills it in. Between
two types nothing is being mapped, so no entry lacks its fields then.
-/

import TreeLowering.Proofs.Types.Closed

namespace TreeLowering.Ir

/-! ### Entries -/

/-- Every struct type of the module has its fields. -/
def Module.Filled (target : Module) : Prop := ∀ entry ∈ target.types, entry.fields ≠ none

namespace Module

variable {target second : Module} {name : String} {fields : List Ty}

theorem Filled.of_types (filled : target.Filled) (same : second.types = target.types) :
    second.Filled := by
  unfold Filled
  rw [same]
  exact filled

/-- A struct that is declared in full has an entry and no other. -/
theorem count_of_knows (known : target.Knows name) :
    (target.types.toList.map TypeDef.name).count name = 1 := by
  obtain ⟨fields, stored⟩ := known
  obtain ⟨entry, found, _⟩ := Option.bind_eq_some_iff.1 stored
  obtain ⟨member, named⟩ := typeDef?_eq_some_iff.1 found
  exact List.count_eq_one_of_mem target.types_nodup
    (named ▸ List.mem_map_of_mem (Array.mem_toList_iff.2 member))

/-- Only the entry of the struct that is declared may be new or change. -/
theorem mem_of_declareType (declared : target.declareType name fields = .ok () second)
    {entry : TypeDef} (member : entry ∈ second.types) (other : entry.name ≠ name) :
    entry ∈ target.types := by
  rcases declareType_ok declared with ⟨missing, rfl⟩ | ⟨position, stored, _, rfl⟩ | ⟨_, rfl⟩
  · rcases Array.mem_push.1 member with old | rfl
    · exact old
    · exact absurd rfl other
  · have found : (target.setFields position fields).typeDef? entry.name = some entry :=
      typeDef?_eq_some_iff.2 ⟨member, rfl⟩
    rw [typeDef?_setFields stored, if_neg (Ne.symm other)] at found
    exact (typeDef?_eq_some_iff.1 found).1
  · exact member

end Module

end TreeLowering.Ir

namespace TreeLowering.Lowering

open TreeLowering.Ir TreeLowering.Tree

/-! ### Neat tables -/

/-- A struct of this name is being mapped. -/
def TypeMemo.Awaits (source : Source) (memo : TypeMemo) (name : String) : Prop :=
  ∃ ty ∈ memo.pending, ∃ definition, source.program.types.kind ty = .struct definition ∧
    source.names.text definition.name = name

/-- An entry lacks its fields only while they are being mapped. -/
def TypeState.Neat (source : Source) (state : TypeState) : Prop :=
  ∀ entry ∈ state.target.types, entry.fields = none → state.memo.Awaits source entry.name

/-- The mapping of a part keeps the table neat. -/
def MapsNeat (source : Source) (mapPart : TypeId → TypeM Ty) (part : TypeId) : Prop :=
  ∀ state : TypeState, state.Neat source → Returns (mapPart part) state fun _ after =>
    after.Neat source ∧ after.memo.pending = state.memo.pending

section Mapping

variable {source : Source} {state : TypeState} {mapPart : TypeId → TypeM Ty}

theorem neat_mapAll {α : Type} {items : List α} {part : α → TypeId}
    (parts : ∀ ty, MapsNeat source mapPart ty) (neat : state.Neat source) :
    Returns (items.mapM fun item => mapPart (part item)) state fun _ after =>
      after.Neat source ∧ after.memo.pending = state.memo.pending := by
  induction items generalizing state with
  | nil => exact returns_pure.2 ⟨neat, rfl⟩
  | cons item rest inductionHypothesis =>
    rw [List.mapM_cons, returns_bind]
    refine (parts (part item) state neat).mono fun _ middle ⟨neat', same⟩ => ?_
    rw [returns_bind]
    refine (inductionHypothesis neat').mono fun _ after ⟨neat'', same'⟩ => ?_
    exact returns_pure.2 ⟨neat'', same'.trans same⟩

theorem neat_mapShape (parts : ∀ ty, MapsNeat source mapPart ty) (neat : state.Neat source)
    (kind : TypeKind) :
    Returns (mapShape source mapPart kind) state fun _ after =>
      after.Neat source ∧ after.memo.pending = state.memo.pending := by
  cases kind <;> unfold mapShape
  case reference pointee mutable =>
    rw [returns_bind]
    refine (parts pointee state neat).mono fun _ after kept => ?_
    split <;> exact returns_pure.2 kept
  case array elem len =>
    rw [returns_bind]
    exact (parts elem state neat).mono fun _ _ kept => returns_pure.2 kept
  case slice elem =>
    rw [returns_bind]
    exact (parts elem state neat).mono fun _ _ kept => returns_pure.2 kept
  case function params ret =>
    rw [returns_bind]
    refine (@neat_mapAll source state mapPart _ params id parts neat).mono
      fun _ middle ⟨neat', same⟩ => ?_
    rw [returns_bind]
    refine (parts ret middle neat').mono fun _ after ⟨neat'', same'⟩ => ?_
    exact returns_pure.2 ⟨neat'', same'.trans same⟩
  all_goals exact returns_pure.2 ⟨neat, rfl⟩

/-- The entry that was reserved for a struct is filled in behind its fields. -/
theorem neat_mapStruct (parts : ∀ ty, MapsNeat source mapPart ty) (neat : state.Neat source)
    {ty : TypeId} {definition : StructDef}
    (struct : source.program.types.kind ty = .struct definition) :
    Returns (mapStruct source mapPart ty definition) state fun _ after =>
      after.Neat source ∧ after.memo.pending = state.memo.pending := by
  unfold mapStruct
  rw [returns_bind, returns_get]
  split
  · exact returns_pure.2 ⟨neat, rfl⟩
  rw [returns_bind]
  have opened : TypeState.Neat source
      ⟨{ state.memo with pending := ty :: state.memo.pending },
        state.target.declareName (source.names.text definition.name)⟩ := by
    intro entry member bare
    have waits : entry ∈ state.target.types → TypeMemo.Awaits source
        { state.memo with pending := ty :: state.memo.pending } entry.name := by
      intro old
      obtain ⟨other, waiting, rest⟩ := neat entry old bare
      exact ⟨other, List.mem_cons_of_mem _ waiting, rest⟩
    rcases Option.eq_none_or_eq_some
        (state.target.typeDef? (source.names.text definition.name)) with missing | ⟨_, found⟩
    · rw [Module.declareName_of_none missing] at member
      rcases Array.mem_push.1 member with old | rfl
      · exact waits old
      · exact ⟨ty, List.mem_cons_self, definition, struct, rfl⟩
    · rw [Module.declareName_of_some found] at member
      exact waits member
  refine returns_whileOpen ((neat_mapAll parts opened).mono ?_)
  rintro mapped after ⟨neat', same⟩
  have pending : (TypeM.closeStruct ty after).memo.pending = state.memo.pending := by
    show after.memo.pending.erase ty = _
    rw [same, List.erase_cons_head]
  rw [returns_bind]
  refine returns_declareStruct fun target declared => ?_
  rw [returns_bind]
  refine returns_modify.2 (returns_pure.2 ?_)
  refine ⟨fun entry member bare => ?_, pending⟩
  -- the entry of this struct has its fields by now
  have other : entry.name ≠ source.names.text definition.name := by
    intro named
    have stored := structFields?_declareType_self declared
    rw [Tables.structFields?, ← named, Module.typeDef?_eq_some_iff.2 ⟨member, rfl⟩] at stored
    exact Option.some_ne_none _ (stored.symm.trans bare)
  obtain ⟨ty', waiting, definition', struct', named⟩ :=
    neat' entry (Module.mem_of_declareType declared member other) bare
  rw [same] at waiting
  rcases List.mem_cons.1 waiting with rfl | waiting
  · cases struct.symm.trans struct'
    exact absurd named.symm other
  · refine ⟨ty', ?_, definition', struct', named⟩
    rw [← pending] at waiting
    exact waiting

theorem neat_mapTypeWithin (source : Source) (fuel : Nat) (ty : TypeId) :
    MapsNeat source (mapTypeWithin source fuel) ty := by
  induction fuel generalizing ty with
  | zero => exact fun _ _ _ _ impossible => by cases impossible
  | succ fuel inductionHypothesis =>
    intro state neat
    unfold mapTypeWithin
    rw [returns_bind, returns_get]
    split
    · exact returns_pure.2 ⟨neat, rfl⟩
    · split
      · next struct => exact neat_mapStruct inductionHypothesis neat struct
      · rw [returns_bind]
        refine (neat_mapShape inductionHypothesis neat _).mono fun _ after kept => ?_
        obtain ⟨neat', same⟩ := kept
        rw [returns_bind]
        exact returns_modify.2 (returns_pure.2 ⟨neat', same⟩)

end Mapping

/-! ### Between two types -/

/-- Between two types, nothing is half done. -/
theorem TypeState.Neat.filled_of_idle {source : Source} {state : TypeState}
    (neat : state.Neat source) (idle : state.memo.pending = []) : state.target.Filled := by
  intro entry member bare
  obtain ⟨ty, waiting, _⟩ := neat entry member bare
  rw [idle] at waiting
  cases waiting

/-- A type that is mapped between two others leaves every struct with its fields. -/
theorem returns_mapType_filled (source : Source) {state : TypeState}
    (filled : state.target.Filled) (idle : state.memo.pending = []) (ty : TypeId) :
    Returns (mapType source ty) state fun _ after => after.target.Filled := by
  have neat : state.Neat source := fun entry member bare => absurd bare (filled entry member)
  exact (neat_mapTypeWithin source _ ty state neat).mono fun _ after ⟨neat', same⟩ =>
    neat'.filled_of_idle (same.trans idle)

end TreeLowering.Lowering
