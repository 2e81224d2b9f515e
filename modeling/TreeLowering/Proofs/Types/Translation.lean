/-
This file gives the meaning of types without a memory and proves that the mapping computes it. The
translation of a type goes through its parts; a struct translates to its name. Where types contain
themselves through structs only and the text of a struct is its own, the mapping of a type never
fails: it never goes too deep, and no struct is declared twice with different fields.
-/

import TreeLowering.Proofs.Regime.Rules
import TreeLowering.Proofs.Tables.Module
import TreeLowering.Proofs.Types.Formed

namespace TreeLowering.Lowering

open TreeLowering.Ir TreeLowering.Tree Relation

/-! ### Translation -/

/-- A shape with its parts translated by `part`. A reference to text or to a slice is the slice
itself. -/
def translateShape (source : Source) (part : TypeId → Ty) : TypeKind → Ty
  | .bool => .bool
  | .char => .char
  | .i32 => .i32
  | .u32 => .u32
  | .isize => .isize
  | .usize => .usize
  | .u8 => .u8
  | .unit => .unit
  | .never => .never
  | .str => .slice .u8
  | .slice elem => .slice (part elem)
  | .reference pointee mutable =>
    match source.program.types.kind pointee with
    | .str | .slice _ => part pointee
    | _ => .ptr (part pointee) mutable
  | .array elem len => .array (part elem) len
  | .function params ret => .func (params.map part) (part ret)
  | .struct definition => .struct (source.names.text definition.name)
  | .infer => .unresolved "_"

namespace Source

/-- The translation of a type through at most `fuel` levels. -/
def translateWithin (source : Source) : (fuel : Nat) → TypeId → Ty
  | 0, _ => .unresolved "_"
  | fuel + 1, ty => translateShape source (source.translateWithin fuel) (source.program.types.kind ty)

/-- The type of the instruction set that a resolved type stands for. -/
def translation (source : Source) (ty : TypeId) : Ty :=
  source.translateWithin (source.program.types.size + 1) ty

/-- How many types a type is made of, itself included. -/
noncomputable def typeRank (source : Source) (ty : TypeId) : Nat :=
  rank source.program.types.Contains TypeId.mk source.program.types.size ty

theorem typeRank_le (source : Source) (ty : TypeId) :
    source.typeRank ty ≤ source.program.types.size := rank_le ty

variable {source : Source}

theorem Mappable.typeRank_lt (mappable : source.Mappable) {whole part : TypeId}
    (contains : part ∈ (source.program.types.kind whole).parts) :
    source.typeRank part < source.typeRank whole := by
  refine rank_lt (mappable.layered _) (TypePool.inside_of_kind fun open_ => ?_) contains
  rw [open_] at contains
  cases contains

theorem translateShape_congr {first second : TypeId → Ty} {kind : TypeKind}
    (same : ∀ part ∈ kind.parts, first part = second part) :
    translateShape source first kind = translateShape source second kind := by
  cases kind with
  | slice elem => exact congrArg Ty.slice (same elem List.mem_cons_self)
  | reference pointee mutable =>
    simp only [translateShape, same pointee List.mem_cons_self]
  | array elem len => exact congrArg (Ty.array · len) (same elem List.mem_cons_self)
  | function params ret =>
    have each : params.map first = params.map second :=
      List.map_congr_left fun part member => same part (List.mem_cons_of_mem _ member)
    simp only [translateShape, same ret List.mem_cons_self, each]
  | _ => rfl

/-- The translation does not depend on how deep it may go. -/
theorem Mappable.translateWithin_eq (mappable : source.Mappable) {fuel fuel' : Nat} {ty : TypeId}
    (enough : source.typeRank ty < fuel) (enough' : source.typeRank ty < fuel') :
    source.translateWithin fuel ty = source.translateWithin fuel' ty := by
  induction fuel generalizing fuel' ty with
  | zero => cases enough
  | succ fuel inductionHypothesis =>
    obtain ⟨fuel', rfl⟩ := Nat.exists_eq_succ_of_ne_zero (Nat.ne_of_gt (Nat.zero_lt_of_lt enough'))
    refine translateShape_congr fun part member => ?_
    have less := mappable.typeRank_lt member
    exact inductionHypothesis (by omega) (by omega)

theorem Mappable.translation_eq (mappable : source.Mappable) (ty : TypeId) :
    source.translation ty =
      translateShape source source.translation (source.program.types.kind ty) := by
  refine translateShape_congr fun part member => ?_
  have less := mappable.typeRank_lt member
  have most := source.typeRank_le ty
  exact mappable.translateWithin_eq (by omega) (by omega)

theorem Mappable.translation_struct (mappable : source.Mappable) {ty : TypeId}
    {definition : StructDef} (found : source.program.types.kind ty = .struct definition) :
    source.translation ty = .struct (source.names.text definition.name) := by
  rw [mappable.translation_eq, found]
  rfl

end Source

/-! ### Declared structs -/

/-- Reserving a name declares no fields. -/
theorem structFields?_declareName (target : Module) (name other : String) :
    (target.declareName name).structFields? other = target.structFields? other := by
  rcases Option.eq_none_or_eq_some (target.typeDef? name) with missing | ⟨entry, found⟩
  · rw [Module.declareName_of_none missing, Tables.structFields?, Module.typeDef?_addType,
      Tables.structFields?]
    cases target.typeDef? other with
    | some found => rfl
    | none =>
      rw [Option.none_or]
      split <;> rfl
  · rw [Module.declareName_of_some found]

/-- Declaring a struct changes no other one. -/
theorem structFields?_declareType_of_ne {target second : Module} {name other : String}
    {fields : List Ty} (declared : target.declareType name fields = .ok () second)
    (differs : other ≠ name) : second.structFields? other = target.structFields? other := by
  rcases Module.declareType_ok declared with ⟨missing, rfl⟩ | ⟨position, stored, _, rfl⟩ | ⟨_, rfl⟩
  · rw [Tables.structFields?, Module.typeDef?_addType, if_neg (Ne.symm differs), Option.or_none,
      Tables.structFields?]
  · rw [Tables.structFields?, Module.typeDef?_setFields stored, if_neg (Ne.symm differs),
      Tables.structFields?]
  · rfl

/-- Declaring a struct declares no other one. -/
theorem structFields?_declareType {target second : Module} {name other : String}
    {fields found : List Ty} (declared : target.declareType name fields = .ok () second)
    (stored : second.structFields? other = some found) :
    other = name ∨ target.structFields? other = some found := by
  by_cases same : other = name
  · exact .inl same
  · exact .inr ((structFields?_declareType_of_ne declared same).symm.trans stored)

/-! ### The mapping -/

/-- What the mapping remembers is right. The structs whose fields are being mapped are not known
yet, and a struct that is declared in full is known. -/
structure TypeState.Truthful (source : Source) (state : TypeState) : Prop where
  known : ∀ ty mapped, state.memo.known.lookup ty = some mapped → mapped = source.translation ty
  pending : ∀ ty ∈ state.memo.pending, state.memo.known.lookup ty = none ∧
    ∃ definition, source.program.types.kind ty = .struct definition
  distinct : state.memo.pending.Nodup
  declared : ∀ name fields, state.target.structFields? name = some fields →
    ∃ ty definition mapped, source.program.types.kind ty = .struct definition ∧
      source.names.text definition.name = name ∧ state.memo.known.lookup ty = some mapped

section Mapping

variable {source : Source} {state : TypeState}

theorem lookup_remember (known : List (TypeId × Ty)) (ty other : TypeId) (mapped : Ty) :
    ((ty, mapped) :: known).lookup other = if other = ty then some mapped else known.lookup other :=
  lookup_cons_ite ty other mapped known

/-- What is learned about a type that is not being mapped is remembered. -/
theorem TypeState.Truthful.remember (truthful : state.Truthful source) {ty : TypeId} {mapped : Ty}
    (right : mapped = source.translation ty) (outside : ty ∉ state.memo.pending) :
    TypeState.Truthful source
      { state with memo := { state.memo with known := (ty, mapped) :: state.memo.known } } := by
  refine ⟨fun other mapped' found => ?_, fun other member => ?_, truthful.distinct,
    fun name fields declared => ?_⟩
  · rw [lookup_remember] at found
    split at found
    · next same =>
      cases found
      rw [same, right]
    · exact truthful.known other mapped' found
  · obtain ⟨unknown, struct⟩ := truthful.pending other member
    refine ⟨?_, struct⟩
    have differs : other ≠ ty := fun same => outside (same ▸ member)
    rw [lookup_remember, if_neg differs, unknown]
  · obtain ⟨other, definition, mapped', struct, named, found⟩ :=
      truthful.declared name fields declared
    by_cases same : other = ty
    · exact ⟨other, definition, mapped, struct, named, by rw [lookup_remember, if_pos same]⟩
    · exact ⟨other, definition, mapped', struct, named, by rw [lookup_remember, if_neg same, found]⟩

/-- A struct that is no longer being mapped may be known or not. -/
theorem TypeState.Truthful.close (truthful : state.Truthful source) (ty : TypeId) :
    TypeState.Truthful source (TypeM.closeStruct ty state) :=
  ⟨truthful.known, fun other member => truthful.pending other (List.mem_of_mem_erase member),
    truthful.distinct.erase ty, truthful.declared⟩

/-- Fewer structs are being mapped than there are types. -/
theorem TypeState.Truthful.room (truthful : state.Truthful source) {ty : TypeId}
    {definition : StructDef} (struct : source.program.types.kind ty = .struct definition)
    (outside : ty ∉ state.memo.pending) :
    state.memo.pending.length < source.program.types.size := by
  have distinct : ((ty :: state.memo.pending).map TypeId.index).Nodup :=
    (List.nodup_cons.2 ⟨outside, truthful.distinct⟩).map fun first second same =>
      congrArg TypeId.mk same
  have inside : (ty :: state.memo.pending).map TypeId.index ⊆
      List.range source.program.types.size := by
    intro index member
    obtain ⟨other, listed, rfl⟩ := List.mem_map.1 member
    rw [List.mem_range]
    rcases List.mem_cons.1 listed with rfl | waiting
    · exact TypePool.inside_of_kind (struct.trans_ne nofun)
    · obtain ⟨_, definition', struct'⟩ := truthful.pending other waiting
      exact TypePool.inside_of_kind (struct'.trans_ne nofun)
  have counted := (distinct.subperm inside).length_le
  rwa [List.length_map, List.length_cons, List.length_range] at counted

theorem ends_whileOpen {α : Type} {ty : TypeId} {name : String} {action : TypeM α}
    {post : α → TypeState → Prop} {lapse : Error → TypeState → Prop} :
    Ends (TypeM.whileOpen ty name action) state post lapse ↔
      Ends action
        ⟨{ state.memo with pending := ty :: state.memo.pending }, state.target.declareName name⟩
        (fun result after => post result (TypeM.closeStruct ty after))
        fun cause after => lapse cause (TypeM.closeStruct ty after) := by
  have opened : (TypeM.openStruct ty name *> action) state = action
      ⟨{ state.memo with pending := ty :: state.memo.pending }, state.target.declareName name⟩ := by
    rw [seqRight_eq_bind]
    rfl
  unfold Ends TypeM.whileOpen
  rw [opened]
  cases action
    ⟨{ state.memo with pending := ty :: state.memo.pending }, state.target.declareName name⟩ <;> rfl

/-- Mapping a part gives its translation and leaves the same structs waiting. -/
def MapsTo (source : Source) (pending : List TypeId) (mapPart : TypeId → TypeM Ty) (part : TypeId) :
    Prop :=
  ∀ state : TypeState, state.Truthful source ∧ state.memo.pending = pending →
    Ends (mapPart part) state
      (fun mapped after => (after.Truthful source ∧ after.memo.pending = pending) ∧
        mapped = source.translation part) fun _ _ => False

theorem eq_map_of_forall₂ {α β : Type} {items : List α} {results : List β} {answer : α → β}
    (each : List.Forall₂ (fun item result => result = answer item) items results) :
    results = items.map answer := by
  induction each with
  | nil => rfl
  | cons head _ inductionHypothesis => rw [List.map_cons, head, inductionHypothesis]

theorem ends_mapShape {mapPart : TypeId → TypeM Ty} {kind : TypeKind} {pending : List TypeId}
    (plain : ∀ definition, kind ≠ .struct definition)
    (parts : ∀ part ∈ kind.parts, MapsTo source pending mapPart part)
    (truthful : state.Truthful source ∧ state.memo.pending = pending) :
    Ends (mapShape source mapPart kind) state
      (fun mapped after => (after.Truthful source ∧ after.memo.pending = pending) ∧
        mapped = translateShape source source.translation kind) fun _ _ => False := by
  cases kind with
  | struct definition => exact absurd rfl (plain definition)
  | slice elem =>
    unfold mapShape
    rw [ends_bind]
    refine (parts elem List.mem_cons_self state truthful).mono ?_ fun _ _ => id
    rintro _ after ⟨kept, rfl⟩
    exact ⟨kept, rfl⟩
  | reference pointee mutable =>
    unfold mapShape
    rw [ends_bind]
    refine (parts pointee List.mem_cons_self state truthful).mono ?_ fun _ _ => id
    rintro _ after ⟨kept, rfl⟩
    cases shape : source.program.types.kind pointee <;>
      exact ⟨kept, by simp only [translateShape, shape]⟩
  | array elem len =>
    unfold mapShape
    rw [ends_bind]
    refine (parts elem List.mem_cons_self state truthful).mono ?_ fun _ _ => id
    rintro _ after ⟨kept, rfl⟩
    exact ⟨kept, rfl⟩
  | function params ret =>
    unfold mapShape
    rw [ends_bind]
    refine (Ends.mapM (fun part member state => parts part (List.mem_cons_of_mem _ member) state)
      truthful).mono ?_ fun _ _ => id
    rintro mapped middle ⟨kept, each⟩
    rw [ends_bind]
    refine (parts ret List.mem_cons_self middle kept).mono ?_ fun _ _ => id
    rintro _ after ⟨kept', rfl⟩
    exact ⟨kept', by rw [translateShape, eq_map_of_forall₂ each]⟩
  | _ => exact ⟨truthful, rfl⟩

/-- A struct whose fields are being mapped is known by its name; any other is declared. -/
theorem ends_mapStruct {mapField : TypeId → TypeM Ty} {ty : TypeId} {definition : StructDef}
    (mappable : source.Mappable) (struct : source.program.types.kind ty = .struct definition)
    (truthful : state.Truthful source) (unknown : state.memo.known.lookup ty = none)
    (fields : ty ∉ state.memo.pending → ∀ field ∈ definition.fields,
      MapsTo source (ty :: state.memo.pending) mapField field.2) :
    Ends (mapStruct source mapField ty definition) state
      (fun mapped after => (after.Truthful source ∧ after.memo.pending = state.memo.pending) ∧
        mapped = source.translation ty) fun _ _ => False := by
  unfold mapStruct
  rw [ends_bind, ends_get]
  split
  · exact ⟨⟨truthful, rfl⟩, (mappable.translation_struct struct).symm⟩
  next outside =>
  replace outside : ty ∉ state.memo.pending := by simpa using outside
  rw [ends_bind, ends_whileOpen]
  have opened : TypeState.Truthful source
      ⟨{ state.memo with pending := ty :: state.memo.pending },
        state.target.declareName (source.names.text definition.name)⟩ := by
    refine ⟨truthful.known, fun other member => ?_, List.nodup_cons.2 ⟨outside, truthful.distinct⟩,
      fun name found declared => ?_⟩
    · rcases List.mem_cons.1 member with rfl | waiting
      · exact ⟨unknown, definition, struct⟩
      · exact truthful.pending other waiting
    · rw [structFields?_declareName] at declared
      exact truthful.declared name found declared
  refine (Ends.mapM (fun field member state => fields outside field member state)
    ⟨opened, rfl⟩).mono ?_ fun _ _ => id
  rintro mapped after ⟨⟨kept, pending⟩, _⟩
  -- the struct itself was waiting all the while, so nobody has declared its fields
  obtain ⟨unknown', _⟩ := kept.pending ty (by rw [pending]; exact List.mem_cons_self)
  have closed : (TypeM.closeStruct ty after).memo.pending = state.memo.pending := by
    show after.memo.pending.erase ty = _
    rw [pending, List.erase_cons_head]
  have undeclared : after.target.structFields? (source.names.text definition.name) = none := by
    by_contra declared
    obtain ⟨found, declared⟩ := Option.ne_none_iff_exists'.1 declared
    obtain ⟨other, definition', mapped', struct', named, found'⟩ := kept.declared _ found declared
    rw [mappable.struct_eq_of_text struct' struct named, unknown'] at found'
    cases found'
  rw [ends_bind]
  obtain ⟨target, declared⟩ : ∃ target, after.target.declareType
      (source.names.text definition.name) mapped = .ok () target := by
    rcases after.target.declareType_cases (source.names.text definition.name) mapped with
      ⟨_, added⟩ | ⟨_, _, _, filled⟩ | ⟨_, kept⟩ | ⟨existing, found, _⟩
    · exact ⟨_, added⟩
    · exact ⟨_, filled⟩
    · exact ⟨_, kept⟩
    · rw [Tables.structFields?, found] at undeclared
      cases undeclared
  have step : TypeM.declareStruct (source.names.text definition.name) mapped
      (TypeM.closeStruct ty after) = .ok () { TypeM.closeStruct ty after with target } := by
    simp only [TypeM.declareStruct, TypeM.closeStruct, declared]
  unfold Ends
  rw [step]
  refine ⟨⟨?_, closed⟩, (mappable.translation_struct struct).symm⟩
  have remembered := (kept.close ty).remember (mappable.translation_struct struct).symm
    (by rw [closed]; exact outside)
  refine ⟨remembered.known, remembered.pending, remembered.distinct, fun name found stored => ?_⟩
  rcases structFields?_declareType declared stored with rfl | earlier
  · exact ⟨ty, definition, _, struct, rfl, by rw [lookup_remember, if_pos rfl]⟩
  · exact remembered.declared name found earlier

/-- The mapping computes the translation and never fails. Going down, either the struct that is
opened is one more that waits, or the type is made of less. -/
theorem ends_mapTypeWithin (mappable : source.Mappable) {fuel : Nat} {ty : TypeId}
    (truthful : state.Truthful source)
    (enough : (source.program.types.size - state.memo.pending.length) *
      (source.program.types.size + 1) + source.typeRank ty < fuel) :
    Ends (mapTypeWithin source fuel ty) state
      (fun mapped after => (after.Truthful source ∧ after.memo.pending = state.memo.pending) ∧
        mapped = source.translation ty) fun _ _ => False := by
  induction fuel generalizing ty state with
  | zero => cases enough
  | succ fuel inductionHypothesis =>
    unfold mapTypeWithin
    rw [ends_bind, ends_get]
    cases known : state.memo.known.lookup ty with
    | some mapped => exact ⟨⟨truthful, rfl⟩, truthful.known ty mapped known⟩
    | none =>
    dsimp only
    split
    · next definition struct =>
      refine ends_mapStruct mappable struct truthful known fun outside field _ other holds => ?_
      have room := truthful.room struct outside
      have most := source.typeRank_le field.2
      rw [← holds.2]
      refine inductionHypothesis holds.1 ?_
      rw [holds.2, List.length_cons]
      obtain ⟨spare, count⟩ := Nat.exists_eq_add_of_lt room
      have fewer : source.program.types.size - (state.memo.pending.length + 1) = spare := by omega
      have more : source.program.types.size - state.memo.pending.length = spare + 1 := by omega
      rw [more, Nat.succ_mul] at enough
      rw [fewer]
      omega
    · next kind plain =>
      rw [ends_bind]
      refine (ends_mapShape plain (fun part member other holds => ?_) ⟨truthful, rfl⟩).mono ?_
        fun _ _ => id
      · have less := mappable.typeRank_lt member
        rw [← holds.2]
        refine inductionHypothesis holds.1 ?_
        rw [holds.2]
        omega
      · rintro mapped after ⟨⟨kept, pending⟩, right⟩
        rw [← mappable.translation_eq] at right
        refine ⟨⟨kept.remember right fun waiting => ?_, pending⟩, right⟩
        obtain ⟨_, definition, struct⟩ := kept.pending ty waiting
        exact plain definition struct

theorem ends_mapType (mappable : source.Mappable) (truthful : state.Truthful source)
    (idle : state.memo.pending = []) (ty : TypeId) :
    Ends (mapType source ty) state
      (fun mapped after => (after.Truthful source ∧ after.memo.pending = []) ∧
        mapped = source.translation ty) fun _ _ => False := by
  rw [← idle]
  refine ends_mapTypeWithin mappable truthful ?_
  rw [idle, List.length_nil, Nat.sub_zero, Source.typeDepth]
  have most := source.typeRank_le ty
  simp only [Nat.mul_add, Nat.add_mul]
  omega

end Mapping

end TreeLowering.Lowering
