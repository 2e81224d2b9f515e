/-
This file proves that the maps of a type pool stay in step with its entries. The map of shapes knows
exactly the entries that are no structs, each by its position, and the map of names knows exactly
the structs, whatever fields they have by then. Hence no structural shape and no struct name is ever
entered twice.
-/

import Mathlib.Tactic.SplitIfs
import TreeLowering.Tree.TypePool

namespace TreeLowering.Tree

/-- A search in a map with one more entry in front. -/
theorem lookup_cons_ite {α β : Type} [DecidableEq α] (key other : α) (value : β)
    (entries : List (α × β)) :
    ((key, value) :: entries).lookup other =
      if other = key then some value else entries.lookup other := by
  rw [List.lookup_cons]
  by_cases same : other = key
  · rw [if_pos same, beq_iff_eq.2 same]
  · rw [if_neg same, beq_false_of_ne same]

/-! ### Shapes -/

namespace TypeKind

/-- The name of a struct. -/
def structName? : TypeKind → Option Name
  | struct definition => some definition.name
  | _ => none

theorem structName?_eq_none {kind : TypeKind} :
    kind.structName? = none ↔ ∀ definition, kind ≠ .struct definition := by
  cases kind <;> simp [structName?]

theorem eq_struct_of_structName? {kind : TypeKind} {name : Name}
    (named : kind.structName? = some name) : ∃ fields, kind = .struct ⟨name, fields⟩ := by
  cases kind with
  | struct definition =>
    cases named
    exact ⟨definition.fields, rfl⟩
  | _ => cases named

/-- Setting fields keeps the name of a struct. -/
@[simp] theorem structName?_withFields (fields : List (Name × TypeId)) (kind : TypeKind) :
    (TypePool.withFields fields kind).structName? = kind.structName? := by
  cases kind <;> rfl

/-- A shape without fields is not touched by setting fields. -/
theorem withFields_of_plain {kind : TypeKind} (plain : kind.structName? = none)
    (fields : List (Name × TypeId)) : TypePool.withFields fields kind = kind := by
  cases kind <;> first | rfl | cases plain

end TypeKind

namespace TypePool

variable {pool : TypePool} {kind kind' : TypeKind} {ty ty' : TypeId} {name : Name}

/-! ### Entries -/

/-- The shape at a position, if the pool reaches that far. -/
def stored? (pool : TypePool) (ty : TypeId) : Option TypeKind := pool.kinds[ty.index]?

theorem kind_of_entry (stored : pool.stored? ty = some kind) : pool.kind ty = kind := by
  unfold stored? at stored
  rw [TypePool.kind, stored, Option.getD_some]

theorem stored?_eq_some_iff : pool.stored? ty = some kind ↔ ty.index < pool.size ∧ pool.kind ty = kind := by
  unfold stored? TypePool.kind size
  rw [Array.getElem?_eq_some_iff]
  refine ⟨fun ⟨inside, stored⟩ => ⟨inside, ?_⟩, fun ⟨inside, stored⟩ => ⟨inside, ?_⟩⟩
  · rw [Array.getElem?_eq_getElem inside, Option.getD_some, stored]
  · rwa [Array.getElem?_eq_getElem inside, Option.getD_some] at stored

theorem inside_of_entry (stored : pool.stored? ty = some kind) : ty.index < pool.size :=
  (stored?_eq_some_iff.1 stored).1

/-- A type that is not left open is in the pool. -/
theorem inside_of_kind (known : pool.kind ty ≠ .infer) : ty.index < pool.size := by
  refine Nat.lt_of_not_le fun outside => known ?_
  unfold TypePool.size at outside
  rw [TypePool.kind, Array.getElem?_eq_none outside, Option.getD_none]

theorem entry_of_kind (found : pool.kind ty = kind) (known : kind ≠ .infer) :
    pool.stored? ty = some kind :=
  stored?_eq_some_iff.2 ⟨inside_of_kind (found ▸ known), found⟩

theorem mem_of_kind (known : pool.kind ty ≠ .infer) : pool.kind ty ∈ pool.kinds := by
  rw [TypePool.kind, Array.getElem?_eq_getElem (inside_of_kind known), Option.getD_some]
  exact Array.getElem_mem _

theorem stored?_push (pool : TypePool) (kind : TypeKind) (ty : TypeId) :
    (pool.push kind).2.stored? ty = if ty.index = pool.size then some kind else pool.stored? ty := by
  simp only [stored?, push, Array.getElem?_push, size]
  rfl

theorem stored?_defineFields (pool : TypePool) (target : TypeId) (fields : List (Name × TypeId))
    (ty : TypeId) : (pool.defineFields target fields).stored? ty =
      if target = ty then (pool.stored? ty).map (withFields fields) else pool.stored? ty := by
  obtain ⟨index⟩ := target
  obtain ⟨index'⟩ := ty
  simp only [stored?, defineFields, Array.getElem?_modify, TypeId.mk.injEq]

@[simp] theorem size_defineFields (pool : TypePool) (target : TypeId)
    (fields : List (Name × TypeId)) : (pool.defineFields target fields).size = pool.size := by
  simp [defineFields, size]

/-! ### What the operations do -/

theorem intern_of_known (known : pool.interned.lookup kind = some ty) :
    pool.intern kind = (ty, pool) := by
  rw [intern, known]

theorem intern_of_missing (missing : pool.interned.lookup kind = none) :
    pool.intern kind = (⟨pool.size⟩, { (pool.push kind).2 with
      interned := (kind, ⟨pool.size⟩) :: pool.interned }) := by
  rw [intern, missing]
  rfl

theorem declareStruct_of_known (known : pool.structByName? name = some ty) :
    pool.declareStruct name = (ty, pool) := by
  rw [declareStruct, known]

theorem declareStruct_of_missing (missing : pool.structByName? name = none) :
    pool.declareStruct name = (⟨pool.size⟩, { (pool.push (.struct ⟨name, []⟩)).2 with
      structsByName := (name, ⟨pool.size⟩) :: pool.structsByName }) := by
  rw [declareStruct, missing]
  rfl

/-- A new entry at the end leaves those before it alone. -/
theorem entry_push_of_some (stored : pool.stored? ty = some kind) (added : TypeKind) :
    (pool.push added).2.stored? ty = some kind := by
  rw [stored?_push, if_neg (Nat.ne_of_lt (inside_of_entry stored)), stored]

theorem entry_intern_of_some (stored : pool.stored? ty = some kind) (added : TypeKind) :
    (pool.intern added).2.stored? ty = some kind := by
  cases found : pool.interned.lookup added with
  | some known => rwa [intern_of_known found]
  | none =>
    rw [intern_of_missing found]
    exact entry_push_of_some stored added

theorem entry_declareStruct_of_some (stored : pool.stored? ty = some kind) (name : Name) :
    (pool.declareStruct name).2.stored? ty = some kind := by
  cases found : pool.structByName? name with
  | some known => rwa [declareStruct_of_known found]
  | none =>
    rw [declareStruct_of_missing found]
    exact entry_push_of_some stored _

/-! ### The maps -/

/-- The maps know what is in the pool, and nothing else. -/
structure InStep (pool : TypePool) : Prop where
  shapes : ∀ kind ty, pool.interned.lookup kind = some ty ↔
    pool.stored? ty = some kind ∧ kind.structName? = none
  names : ∀ name ty, pool.structByName? name = some ty ↔
    (pool.stored? ty).bind TypeKind.structName? = some name

namespace InStep

/-- No structural shape has two positions. -/
theorem shape_unique (inStep : pool.InStep) (plain : kind.structName? = none)
    (stored : pool.stored? ty = some kind) (stored' : pool.stored? ty' = some kind) : ty = ty' :=
  Option.some.inj (((inStep.shapes kind ty).2 ⟨stored, plain⟩).symm.trans
    ((inStep.shapes kind ty').2 ⟨stored', plain⟩))

/-- No struct has two positions. -/
theorem name_unique (inStep : pool.InStep) (stored : pool.stored? ty = some kind)
    (stored' : pool.stored? ty' = some kind') (named : kind.structName? = some name)
    (named' : kind'.structName? = some name) : ty = ty' := by
  have known := (inStep.names name ty).2 (by rw [stored]; exact named)
  have known' := (inStep.names name ty').2 (by rw [stored']; exact named')
  exact Option.some.inj (known.symm.trans known')

theorem initial : TypePool.initial.InStep where
  shapes kind ty := by
    have listed : ∀ pair ∈ TypePool.initial.interned,
        TypePool.initial.stored? pair.2 = some pair.1 ∧ pair.1.structName? = none := by decide
    have known : ∀ index : Fin 11, TypePool.initial.interned.lookup
        TypePool.initial.kinds[index] = some ⟨index⟩ := by decide
    constructor
    · intro found
      obtain ⟨before, after, split, _⟩ := List.lookup_eq_some_iff.1 found
      exact listed (kind, ty) (by rw [split]; simp)
    · rintro ⟨stored, _⟩
      obtain ⟨inside, found⟩ := Array.getElem?_eq_some_iff.1 stored
      exact found ▸ known ⟨ty.index, inside⟩
  names name ty := by
    have plain : ∀ index : Fin 11, TypePool.initial.kinds[index].structName? = none := by decide
    refine ⟨nofun, fun found => ?_⟩
    obtain ⟨kind, stored, named⟩ := Option.bind_eq_some_iff.1 found
    obtain ⟨inside, rfl⟩ := Array.getElem?_eq_some_iff.1 stored
    cases (plain ⟨ty.index, inside⟩).symm.trans named

/-- Interning a shape that is no struct keeps the maps in step. -/
theorem intern (inStep : pool.InStep) (plain : kind.structName? = none) :
    (pool.intern kind).2.InStep := by
  cases found : pool.interned.lookup kind with
  | some known =>
    rw [intern_of_known found]
    exact inStep
  | none =>
    have unseen : ∀ ty, pool.stored? ty ≠ some kind := fun ty stored => by
      cases found.symm.trans ((inStep.shapes kind ty).2 ⟨stored, plain⟩)
    have entries : ∀ ty, (pool.intern kind).2.stored? ty =
        if ty.index = pool.size then some kind else pool.stored? ty := fun ty => by
      rw [intern_of_missing found]
      exact stored?_push pool kind ty
    refine ⟨fun kind' ty => ?_, fun name ty => ?_⟩
    · have search : (pool.intern kind).2.interned.lookup kind' =
          if kind' = kind then some ⟨pool.size⟩ else pool.interned.lookup kind' := by
        rw [intern_of_missing found]
        exact lookup_cons_ite kind kind' _ _
      rw [search, entries]
      split_ifs with same last last
      · subst same
        exact ⟨fun _ => ⟨rfl, plain⟩, fun _ => congrArg some (congrArg TypeId.mk last.symm)⟩
      · subst same
        refine ⟨fun here => ?_, fun stored => absurd stored.1 (unseen ty)⟩
        cases here
        exact absurd rfl last
      · refine ⟨fun here => ?_, fun stored => absurd (Option.some.inj stored.1).symm same⟩
        exact absurd last (Nat.ne_of_lt (inside_of_entry ((inStep.shapes kind' ty).1 here).1))
      · exact inStep.shapes kind' ty
    · have search : (pool.intern kind).2.structByName? name = pool.structByName? name := by
        rw [intern_of_missing found]
        rfl
      rw [search, inStep.names, entries]
      split_ifs with last
      · rw [Option.bind_some, plain]
        refine ⟨fun stored => ?_, nofun⟩
        obtain ⟨_, stored, _⟩ := Option.bind_eq_some_iff.1 stored
        exact absurd last (Nat.ne_of_lt (inside_of_entry stored))
      · exact Iff.rfl

theorem declareStruct (inStep : pool.InStep) (name : Name) : (pool.declareStruct name).2.InStep := by
  cases found : pool.structByName? name with
  | some known =>
    rw [declareStruct_of_known found]
    exact inStep
  | none =>
    have unseen : ∀ ty, (pool.stored? ty).bind TypeKind.structName? ≠ some name := fun ty stored => by
      cases found.symm.trans ((inStep.names name ty).2 stored)
    have entries : ∀ ty, (pool.declareStruct name).2.stored? ty =
        if ty.index = pool.size then some (.struct ⟨name, []⟩) else pool.stored? ty := fun ty => by
      rw [declareStruct_of_missing found]
      exact stored?_push pool _ ty
    refine ⟨fun kind ty => ?_, fun name' ty => ?_⟩
    · have search : (pool.declareStruct name).2.interned = pool.interned := by
        rw [declareStruct_of_missing found]
        rfl
      rw [search, inStep.shapes, entries]
      split_ifs with last
      · refine ⟨fun stored => ?_, fun stored => ?_⟩
        · exact absurd last (Nat.ne_of_lt (inside_of_entry stored.1))
        · cases stored.1
          cases stored.2
      · exact Iff.rfl
    · have search : (pool.declareStruct name).2.structByName? name' =
          if name' = name then some ⟨pool.size⟩ else pool.structByName? name' := by
        rw [declareStruct_of_missing found]
        exact lookup_cons_ite name name' _ _
      rw [search, entries]
      split_ifs with same last last
      · subst same
        exact ⟨fun _ => rfl, fun _ => congrArg some (congrArg TypeId.mk last.symm)⟩
      · subst same
        refine ⟨fun here => ?_, fun stored => absurd stored (unseen ty)⟩
        cases here
        exact absurd rfl last
      · refine ⟨fun here => ?_, fun stored => absurd (Option.some.inj stored).symm same⟩
        obtain ⟨_, stored, _⟩ := Option.bind_eq_some_iff.1 ((inStep.names name' ty).1 here)
        exact absurd last (Nat.ne_of_lt (inside_of_entry stored))
      · exact inStep.names name' ty

/-- Fields may be set at any position: no shape but that of a struct changes, and no name. -/
theorem defineFields (inStep : pool.InStep) (target : TypeId) (fields : List (Name × TypeId)) :
    (pool.defineFields target fields).InStep := by
  refine ⟨fun kind ty => (inStep.shapes kind ty).trans ?_, fun name ty =>
    (inStep.names name ty).trans ?_⟩
  · rw [stored?_defineFields]
    split_ifs
    · refine and_congr_left fun plain => ⟨fun stored => ?_, fun stored => ?_⟩
      · rw [stored, Option.map_some, TypeKind.withFields_of_plain plain]
      · obtain ⟨old, stored', rfl⟩ := Option.map_eq_some_iff.1 stored
        rw [TypeKind.structName?_withFields] at plain
        rw [stored', TypeKind.withFields_of_plain plain]
    · exact Iff.rfl
  · rw [stored?_defineFields]
    split_ifs
    · cases pool.stored? ty with
      | none => exact Iff.rfl
      | some kind => rw [Option.map_some, Option.bind_some, Option.bind_some,
          TypeKind.structName?_withFields]
    · exact Iff.rfl

end InStep

/-! ### The pools that arise -/

/-- The pools that the operations of a pool make. -/
inductive Made : TypePool → Prop
  | initial : Made .initial
  | intern {pool : TypePool} (made : Made pool) {kind : TypeKind}
      (plain : ∀ definition, kind ≠ .struct definition) : Made (pool.intern kind).2
  | declareStruct {pool : TypePool} (made : Made pool) (name : Name) :
      Made (pool.declareStruct name).2
  | defineFields {pool : TypePool} (made : Made pool) (ty : TypeId)
      (fields : List (Name × TypeId)) : Made (pool.defineFields ty fields)

theorem Made.inStep (made : pool.Made) : pool.InStep := by
  induction made with
  | initial => exact .initial
  | intern _ plain inductionHypothesis =>
    exact inductionHypothesis.intern (TypeKind.structName?_eq_none.2 plain)
  | declareStruct _ name inductionHypothesis => exact inductionHypothesis.declareStruct name
  | defineFields _ ty fields inductionHypothesis => exact inductionHypothesis.defineFields ty fields

/-- No two structs of the pool have one name. -/
def StructsApart (pool : TypePool) : Prop :=
  ∀ ty ty' definition definition', pool.kind ty = .struct definition →
    pool.kind ty' = .struct definition' → definition.name = definition'.name → ty = ty'

theorem Made.structsApart (made : pool.Made) : pool.StructsApart :=
  fun _ _ _ _ found found' same => made.inStep.name_unique (entry_of_kind found nofun)
    (entry_of_kind found' nofun) rfl (congrArg some same.symm)

/-- The types that every pool starts with stay what they are. -/
theorem Made.kind_eq (made : pool.Made) (known : TypePool.initial.kind ty ≠ .infer) :
    pool.kind ty = TypePool.initial.kind ty := by
  refine kind_of_entry ?_
  induction made with
  | initial => exact entry_of_kind rfl known
  | intern _ _ inductionHypothesis => exact entry_intern_of_some inductionHypothesis _
  | declareStruct _ name inductionHypothesis =>
    exact entry_declareStruct_of_some inductionHypothesis name
  | @defineFields pool _ target fields inductionHypothesis =>
    have plain : ∀ kind ∈ TypePool.initial.kinds, kind.structName? = none := by decide
    rw [stored?_defineFields, inductionHypothesis, Option.map_some,
      TypeKind.withFields_of_plain (plain _ (mem_of_kind known)), ite_self]

end TypePool

end TreeLowering.Tree
