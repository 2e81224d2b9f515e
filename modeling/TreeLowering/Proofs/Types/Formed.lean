/-
This file says which programs are well formed: every expression that a body reaches exists, no
expression contains itself, types contain themselves through structs only, and names and types come
from tables that were made by their own operations. Where nothing contains itself, the number of
things that a thing leads to falls with every step down, which bounds how deep any descent can go.
-/

import Mathlib
import TreeLowering.Lowering.Program
import TreeLowering.Proofs.Types.Pool

namespace TreeLowering.Tree

open Relation

/-! ### Descent -/

section Rank

variable {α : Type} {leads : α → α → Prop} {name : Nat → α} {size : Nat}

open Classical in
/-- How many of the things called by the first `size` numbers are reached from `start`, which
counts itself. -/
noncomputable def rank (leads : α → α → Prop) (name : Nat → α) (size : Nat) (start : α) : Nat :=
  ((Finset.range size).filter fun number => ReflTransGen leads start (name number)).card

theorem rank_le (start : α) : rank leads name size start ≤ size := by
  classical
  exact (Finset.card_filter_le _ _).trans (Finset.card_range size).le

theorem rank_pos {number : Nat} (inside : number < size) :
    0 < rank leads name size (name number) := by
  classical
  exact Finset.card_pos.2
    ⟨number, Finset.mem_filter.2 ⟨Finset.mem_range.2 inside, .refl⟩⟩

/-- A step down leads to less, unless it can be undone. -/
theorem rank_lt {number : Nat} {part : α} (acyclic : ¬ TransGen leads (name number) (name number))
    (inside : number < size) (step : leads (name number) part) :
    rank leads name size part < rank leads name size (name number) := by
  classical
  refine Finset.card_lt_card (Finset.ssubset_iff_of_subset ?_ |>.2 ⟨number, ?_, ?_⟩)
  · intro other member
    rw [Finset.mem_filter] at member ⊢
    exact ⟨member.1, .head step member.2⟩
  · rw [Finset.mem_filter, Finset.mem_range]
    exact ⟨inside, .refl⟩
  · rw [Finset.mem_filter]
    exact fun member => acyclic (.head' step member.2)

/-- What leads to smaller numbers only never comes back. -/
theorem not_transGen_self (index : α → Nat)
    (descends : ∀ {first last}, leads first last → index last < index first) (start : α) :
    ¬ TransGen leads start start := by
  intro cycle
  have below : ∀ {last}, TransGen leads start last → index last < index start := by
    intro last path
    induction path with
    | single step => exact descends step
    | tail _ step inductionHypothesis => exact (descends step).trans inductionHypothesis
  exact lt_irrefl _ (below cycle)

end Rank

/-! ### Tables -/

/-- The tables that interning makes. -/
inductive NameTable.Made : NameTable → Prop
  | initial : Made .initial
  | intern {table : NameTable} (made : Made table) (text : String) : Made (table.intern text).2

theorem NameTable.Made.nodup {table : NameTable} (made : table.Made) :
    table.texts.toList.Nodup := by
  induction made with
  | initial => decide
  | @intern table _ text inductionHypothesis =>
    unfold NameTable.intern
    split
    · exact inductionHypothesis
    · next missing =>
      rw [Array.toList_push]
      refine List.nodup_append.2 ⟨inductionHypothesis, List.nodup_singleton _, ?_⟩
      intro other member _ last same
      have unmatched := Array.findIdx?_eq_none_iff.1 missing other (Array.mem_toList_iff.1 member)
      rw [same, List.mem_singleton.1 last, beq_self_eq_true] at unmatched
      cases unmatched

/-- Names of one table with one text are one name. -/
theorem NameTable.Made.eq_of_text {table : NameTable} (made : table.Made) {first second : Name}
    (known : first.index < table.size) (known' : second.index < table.size)
    (same : table.text first = table.text second) : first = second := by
  obtain ⟨index⟩ := first
  obtain ⟨index'⟩ := second
  unfold NameTable.size at known known'
  simp only [NameTable.text, Array.getElem?_eq_getElem known, Array.getElem?_eq_getElem known',
    Option.getD_some] at same
  exact congrArg Name.mk
    ((@List.Nodup.getElem_inj_iff _ _ made.nodup index known index' known').1 same)

/-! ### Well-formed programs -/

/-- The types that a shape is made of; the fields of a struct do not count. -/
def TypeKind.parts : TypeKind → List TypeId
  | reference pointee _ => [pointee]
  | array elem _ | slice elem => [elem]
  | function params ret => ret :: params
  | _ => []

/-- A type has another one as a part. -/
def TypePool.Contains (pool : TypePool) (whole part : TypeId) : Prop :=
  part ∈ (pool.kind whole).parts

/-- The types that every pool starts with have no parts. -/
theorem TypePool.not_contains_initial (whole part : TypeId) :
    ¬ TypePool.initial.Contains whole part := by
  intro contains
  have flat : ∀ kind ∈ TypePool.initial.kinds, kind.parts = [] := by decide
  have empty : (TypePool.initial.kind whole).parts = [] := by
    by_cases known : TypePool.initial.kind whole = .infer
    · rw [known]
      rfl
    · exact flat _ (TypePool.mem_of_kind known)
  rw [TypePool.Contains, empty] at contains
  cases contains

/-- Every type comes after its parts. -/
def TypePool.Ordered (pool : TypePool) : Prop :=
  ∀ index : Fin pool.kinds.size, ∀ part ∈ pool.kinds[index].parts, part.index < index.val

instance (pool : TypePool) : Decidable pool.Ordered :=
  inferInstanceAs (Decidable (∀ index : Fin pool.kinds.size,
    ∀ part ∈ pool.kinds[index].parts, part.index < index.val))

theorem TypePool.Ordered.layered {pool : TypePool} (ordered : pool.Ordered) (ty : TypeId) :
    ¬ TransGen pool.Contains ty ty := by
  refine not_transGen_self TypeId.index (fun {whole part} contains => ?_) ty
  have inside : whole.index < pool.kinds.size := TypePool.inside_of_kind fun open_ => by
    rw [TypePool.Contains, open_] at contains
    cases contains
  rw [TypePool.Contains, TypePool.kind, Array.getElem?_eq_getElem inside, Option.getD_some] at contains
  exact ordered ⟨whole.index, inside⟩ part contains

/-- An expression has another one as a part. -/
def Arena.Contains (arena : Arena) (whole part : ExprId) : Prop :=
  ∃ node, arena.get? whole = some node ∧ part ∈ node.kind.children

/-- Every expression comes after its parts. -/
def Arena.Ordered (arena : Arena) : Prop :=
  ∀ index : Fin arena.nodes.size, ∀ part ∈ arena.nodes[index].kind.children,
    part.index < index.val

instance (arena : Arena) : Decidable arena.Ordered :=
  inferInstanceAs (Decidable (∀ index : Fin arena.nodes.size,
    ∀ part ∈ arena.nodes[index].kind.children, part.index < index.val))

namespace Arena.Ordered

variable {arena : Arena} {whole part : ExprId}

theorem index_lt (ordered : arena.Ordered) (contains : arena.Contains whole part) :
    part.index < whole.index := by
  obtain ⟨node, found, member⟩ := contains
  obtain ⟨inside, rfl⟩ := Array.getElem?_eq_some_iff.1 found
  exact ordered ⟨whole.index, inside⟩ part member

theorem acyclic (ordered : arena.Ordered) (expr : ExprId) : ¬ TransGen arena.Contains expr expr :=
  not_transGen_self ExprId.index ordered.index_lt expr

theorem isSome (ordered : arena.Ordered) (inside : whole.index < arena.size)
    (below : ReflTransGen arena.Contains whole part) : (arena.get? part).isSome = true := by
  have inside' : part.index < arena.size := by
    induction below with
    | refl => exact inside
    | tail _ step inductionHypothesis => exact (ordered.index_lt step).trans inductionHypothesis
  rw [Arena.get?, Array.getElem?_eq_getElem inside']
  rfl

end Arena.Ordered

end TreeLowering.Tree

namespace TreeLowering.Lowering

open TreeLowering.Ir TreeLowering.Tree Relation

/-- A program whose types can be mapped. No two structs have one name in a pool that its operations
made. -/
structure Source.Mappable (source : Source) : Prop where
  /-- No type contains itself, except through a struct. -/
  layered : ∀ ty, ¬ TransGen source.program.types.Contains ty ty
  apart : source.program.types.StructsApart
  /-- Names of structs that have one text are one name. -/
  texts : ∀ ty ty' definition definition', source.program.types.kind ty = .struct definition →
    source.program.types.kind ty' = .struct definition' →
    source.names.text definition.name = source.names.text definition'.name →
    definition.name = definition'.name

/-- Structs with one text are one struct. -/
theorem Source.Mappable.struct_eq_of_text {source : Source} (mappable : source.Mappable)
    {ty ty' : TypeId} {definition definition' : StructDef}
    (found : source.program.types.kind ty = .struct definition)
    (found' : source.program.types.kind ty' = .struct definition')
    (same : source.names.text definition.name = source.names.text definition'.name) : ty = ty' :=
  mappable.apart ty ty' definition definition' found found'
    (mappable.texts ty ty' definition definition' found found' same)

/-- A program that the earlier stages can hand over. -/
structure Source.WellFormed (source : Source) : Prop where
  /-- Every expression that a body reaches exists. -/
  found : ∀ decl ∈ source.program.functions, ∀ body ∈ decl.body, ∀ expr,
    ReflTransGen source.program.arena.Contains body expr →
      (source.program.arena.get? expr).isSome = true
  /-- No expression contains itself. -/
  acyclic : ∀ expr, ¬ TransGen source.program.arena.Contains expr expr
  /-- No type contains itself, except through a struct. -/
  layered : ∀ ty, ¬ TransGen source.program.types.Contains ty ty
  pool : source.program.types.Made
  table : source.names.Made
  /-- The names of structs and the link names of functions are in the table. -/
  structs : ∀ ty definition, source.program.types.kind ty = .struct definition →
    definition.name.index < source.names.size
  links : ∀ decl ∈ source.program.functions, decl.link.index < source.names.size

namespace Source.WellFormed

variable {source : Source}

/-- A program is well formed when each type and each expression comes after its parts, and all bodies
and names exist. -/
theorem of_ordered (pool : source.program.types.Made) (types : source.program.types.Ordered)
    (ordered : source.program.arena.Ordered) (table : source.names.Made)
    (structs : ∀ kind ∈ source.program.types.kinds, ∀ name ∈ kind.structName?,
      name.index < source.names.size)
    (bodies : ∀ decl ∈ source.program.functions, ∀ body ∈ decl.body,
      body.index < source.program.arena.size)
    (links : ∀ decl ∈ source.program.functions, decl.link.index < source.names.size) :
    source.WellFormed :=
  ⟨fun decl listed body given _ below => ordered.isSome (bodies decl listed body given) below,
    ordered.acyclic, types.layered, pool, table,
    fun _ definition found =>
      structs _ (found ▸ TypePool.mem_of_kind (found.trans_ne nofun)) definition.name rfl, links⟩

/-- A program over the types that every pool starts with is well formed when each expression comes
after its parts, and all bodies and link names exist. -/
theorem of_initial (types : source.program.types = .initial)
    (ordered : source.program.arena.Ordered) (table : source.names.Made)
    (bodies : ∀ decl ∈ source.program.functions, ∀ body ∈ decl.body,
      body.index < source.program.arena.size)
    (links : ∀ decl ∈ source.program.functions, decl.link.index < source.names.size) :
    source.WellFormed := by
  refine ⟨fun decl listed body given expr below => ordered.isSome (bodies decl listed body given)
    below, ordered.acyclic, fun ty cycle => ?_, types ▸ .initial, table,
    fun ty definition found => ?_, links⟩
  · obtain ⟨_, contains, _⟩ := TransGen.head'_iff.1 cycle
    rw [types] at contains
    exact TypePool.not_contains_initial _ _ contains
  · have member := TypePool.mem_of_kind (found.trans_ne nofun)
    rw [found, types] at member
    simp [TypePool.initial] at member

theorem mappable (formed : source.WellFormed) : source.Mappable where
  layered := formed.layered
  apart := formed.pool.structsApart
  texts _ _ _ _ found found' :=
    formed.table.eq_of_text (formed.structs _ _ found) (formed.structs _ _ found')

end Source.WellFormed

end TreeLowering.Lowering
