/-
This file proves what a mapper does over all its calls. Each type is given its translation, whatever
was mapped before it. After each call, every struct that one of the mapped types leads to has exactly
one definition in the module, and its fields are the translations of those it was declared with: a
struct that was only named while the fields around it were being mapped is complete by then.
-/

import TreeLowering.Proofs.Tables.Struct

namespace TreeLowering.Tree

/-- The types that a shape leads to: its parts, or the types of the fields if it is a struct. -/
def TypeKind.next : TypeKind → List TypeId
  | struct definition => definition.fields.map Prod.snd
  | kind => kind.parts

/-- A type leads to another one at once. -/
def TypePool.LeadsTo (pool : TypePool) (first second : TypeId) : Prop :=
  second ∈ (pool.kind first).next

theorem TypeKind.next_of_plain {kind : TypeKind} (plain : ∀ definition, kind ≠ .struct definition) :
    kind.next = kind.parts := by
  cases kind with
  | struct definition => exact absurd rfl (plain definition)
  | _ => rfl

end TreeLowering.Tree

namespace TreeLowering.Lowering

open TreeLowering.Ir TreeLowering.Tree Relation

section Sequence

variable {source : Source} {state : TypeState} {known : String → Prop}

/-! ### What a type leads to -/

/-- What a shape mentions, its parts mention. -/
theorem within_part {kind : TypeKind}
    (within : (translateShape source source.translation kind).Within known)
    {part : TypeId} (member : part ∈ kind.parts) : (source.translation part).Within known := by
  cases kind with
  | slice elem =>
    obtain rfl := List.mem_singleton.1 member
    cases within with
    | slice within => exact within
  | reference pointee mutable =>
    obtain rfl := List.mem_singleton.1 member
    simp only [translateShape] at within
    split at within
    · exact within
    · exact within
    · cases within with
      | ptr within => exact within
  | array elem len =>
    obtain rfl := List.mem_singleton.1 member
    cases within with
    | array within => exact within
  | function params ret =>
    cases within with
    | func withins within =>
      rcases List.mem_cons.1 member with rfl | member
      · exact within
      · exact withins _ (List.mem_map_of_mem member)
  | _ => cases member

/-- The struct has one entry in the module, and its fields there are the translations of those it was
declared with, in their order. -/
structure Source.DeclaredOnce (source : Source) (target : Module) (definition : StructDef) : Prop where
  once : (target.types.toList.map TypeDef.name).count (source.names.text definition.name) = 1
  fields : target.structFields? (source.names.text definition.name) =
    some (definition.fields.map fun field => source.translation field.2)

namespace TypeState.Complete

/-- A struct that is declared in full has the fields of its definition. -/
theorem structFields?_of_knows (mappable : source.Mappable) (complete : state.Complete source)
    {ty : TypeId} {definition : StructDef}
    (struct : source.program.types.kind ty = .struct definition)
    (knows : state.target.Knows (source.names.text definition.name)) :
    state.target.structFields? (source.names.text definition.name) =
      some (definition.fields.map fun field => source.translation field.2) := by
  obtain ⟨fields, stored⟩ := knows
  obtain ⟨⟨ty', definition', struct', named, rfl⟩, _⟩ := complete.closed.fields _ fields stored
  obtain rfl := mappable.struct_eq_of_text struct struct' named.symm
  cases struct.symm.trans struct'
  exact stored

/-- Whatever a mapped type leads to is known as well. -/
theorem within_of_leadsTo (mappable : source.Mappable) (complete : state.Complete source)
    {first last : TypeId} (within : (source.translation first).Within state.target.Knows)
    (leads : ReflTransGen source.program.types.LeadsTo first last) :
    (source.translation last).Within state.target.Knows := by
  induction leads with
  | refl => exact within
  | @tail middle last _ step inductionHypothesis =>
    rw [TypePool.LeadsTo] at step
    by_cases struct : ∃ definition, source.program.types.kind middle = .struct definition
    · obtain ⟨definition, struct⟩ := struct
      rw [mappable.translation_struct struct] at inductionHypothesis
      cases inductionHypothesis with
      | struct knows =>
        have stored := complete.structFields?_of_knows mappable struct knows
        obtain ⟨_, withins⟩ := complete.closed.fields _ _ stored
        rw [struct] at step
        obtain ⟨field, listed, rfl⟩ := List.mem_map.1 step
        exact (withins _ (List.mem_map_of_mem listed)).mono fun _ => complete.knows
    · rw [TypeKind.next_of_plain (not_exists.1 struct)] at step
      rw [mappable.translation_eq] at inductionHypothesis
      exact within_part inductionHypothesis step

/-- Whatever struct a mapped type leads to is declared. -/
theorem declaredOnce (mappable : source.Mappable) (complete : state.Complete source)
    {first last : TypeId} {definition : StructDef}
    (within : (source.translation first).Within state.target.Knows)
    (leads : ReflTransGen source.program.types.LeadsTo first last)
    (struct : source.program.types.kind last = .struct definition) :
    source.DeclaredOnce state.target definition := by
  have reached := complete.within_of_leadsTo mappable within leads
  rw [mappable.translation_struct struct] at reached
  cases reached with
  | struct knows => exact ⟨Module.count_of_knows knows, complete.structFields?_of_knows mappable struct knows⟩

end TypeState.Complete

/-! ### Calls in a row -/

/-- Types mapped one after another are given their translations, and no struct is forgotten. -/
theorem TypeState.Complete.mapAll (mappable : source.Mappable) (complete : state.Complete source)
    (types : List TypeId) :
    Ends (types.mapM (Lowering.mapType source)) state
      (fun mapped after => after.Complete source ∧
        mapped = types.map source.translation ∧
        (∀ name, state.target.Knows name → after.target.Knows name) ∧
        ∀ ty ∈ types, (source.translation ty).Within after.target.Knows)
      fun _ _ => False := by
  induction types generalizing state with
  | nil => exact ⟨complete, rfl, fun _ => id, nofun⟩
  | cons ty rest inductionHypothesis =>
    rw [List.mapM_cons, ends_bind]
    refine (complete.mapType mappable ty).mono ?_ fun _ _ => id
    rintro _ middle ⟨complete', rfl, within, _, knows⟩
    rw [ends_bind]
    refine (inductionHypothesis complete').mono ?_ fun _ _ => id
    rintro _ after ⟨complete'', rfl, knows', withins⟩
    refine ⟨complete'', rfl, fun name known => knows' name (knows name known), ?_⟩
    exact List.forall_mem_cons.2 ⟨within.mono knows', withins⟩

/-- However many types a mapper is given, each is mapped to its translation, which is made from those
of its parts, and the structs they lead to are all declared, each once. -/
theorem mapType_sequence (mappable : source.Mappable) {target : Module} (bare : target.types = #[])
    (types : List TypeId) :
    (∀ ty, source.translation ty =
      translateShape source source.translation (source.program.types.kind ty)) ∧
    ∃ after, types.mapM (mapType source) ⟨.empty, target⟩ =
        .ok (types.map source.translation) after ∧
      ∀ ty ∈ types, ∀ other, ReflTransGen source.program.types.LeadsTo ty other →
        ∀ definition, source.program.types.kind other = .struct definition →
          source.DeclaredOnce after.target definition := by
  refine ⟨mappable.translation_eq, ?_⟩
  have complete : TypeState.Complete source ⟨.empty, target⟩ :=
    (TypeState.Complete.start source "").of_types bare
  have ended := complete.mapAll mappable types
  unfold Ends at ended
  cases mapped : types.mapM (mapType source) ⟨.empty, target⟩ with
  | error cause after =>
    rw [mapped] at ended
    exact ended.elim
  | ok results after =>
    rw [mapped] at ended
    obtain ⟨complete', rfl, _, withins⟩ := ended
    exact ⟨after, rfl, fun ty member other leads definition struct =>
      complete'.declaredOnce mappable (withins ty member) leads struct⟩

/-- `struct Even { odd: Odd, size: i32 }`
`struct Odd { even: &Even, text: &[u8] }` -/
def evenAndOdd : Source where
  names := ((((((NameTable.initial.intern "Even").2.intern "Odd").2.intern "odd").2.intern
    "size").2.intern "even").2.intern "text").2
  program :=
    { types := (((((((TypePool.initial.declareStruct ⟨1⟩).2.declareStruct ⟨2⟩).2.intern
        (.reference ⟨11⟩ false)).2.intern (.slice .u8)).2.intern (.reference ⟨14⟩ false)).2.defineFields
        ⟨11⟩ [(⟨3⟩, ⟨12⟩), (⟨4⟩, .i32)]).defineFields ⟨12⟩ [(⟨5⟩, ⟨13⟩), (⟨6⟩, ⟨15⟩)])
      scopes := .initial
      arena := ⟨#[]⟩
      items := [] }

theorem evenAndOdd_mappable : evenAndOdd.Mappable := by
  refine Source.WellFormed.mappable (.of_ordered ?_ (by decide +kernel) (by decide) ?_
    (by decide +kernel) (by decide) (by decide))
  · exact .defineFields (.defineFields (.intern (.intern (.intern (.declareStruct (.declareStruct
      .initial _) _) (by simp)) (by simp)) (by simp)) _ _) _ _
  · exact .intern (.intern (.intern (.intern (.intern (.intern .initial _) _) _) _) _) _

theorem evenAndOdd_sequence : evenAndOdd.Mappable ∧ (Module.empty "main").types = #[] ∧
    ∃ after, [⟨13⟩, ⟨15⟩, ⟨12⟩].mapM (mapType evenAndOdd) ⟨.empty, .empty "main"⟩ =
        .ok [.ptr (.struct "Even") false, .slice .u8, .struct "Odd"] after ∧
      evenAndOdd.DeclaredOnce after.target ⟨⟨1⟩, [(⟨3⟩, ⟨12⟩), (⟨4⟩, .i32)]⟩ ∧
      evenAndOdd.DeclaredOnce after.target ⟨⟨2⟩, [(⟨5⟩, ⟨13⟩), (⟨6⟩, ⟨15⟩)]⟩ := by
  obtain ⟨_, after, mapped, declared⟩ :=
    mapType_sequence evenAndOdd_mappable (rfl : (Module.empty "main").types = #[])
      [⟨13⟩, ⟨15⟩, ⟨12⟩]
  have results : [⟨13⟩, ⟨15⟩, ⟨12⟩].map evenAndOdd.translation =
      [.ptr (.struct "Even") false, .slice .u8, .struct "Odd"] := by decide +kernel
  have even : evenAndOdd.program.types.LeadsTo ⟨13⟩ ⟨11⟩ := by
    unfold TypePool.LeadsTo
    decide +kernel
  refine ⟨evenAndOdd_mappable, rfl, after, results ▸ mapped, ?_, ?_⟩
  · exact declared ⟨13⟩ List.mem_cons_self ⟨11⟩ (.single even) _ (by decide +kernel)
  · exact declared ⟨12⟩ (by decide) ⟨12⟩ .refl _ (by decide +kernel)

end Sequence

end TreeLowering.Lowering
