/-
This file proves that the mapping of types leaves nothing half done. When it returns, every struct
that a mapped type mentions is declared in full, with the translations of its fields, and so are the
structs that those fields mention. Modules that declare the structs of a type in this way therefore
give the type the same layout.
-/

import TreeLowering.Proofs.Flow.Declare
import TreeLowering.Proofs.Layout.Place
import TreeLowering.Proofs.Types.Translation

namespace TreeLowering.Ir

/-! ### Structs in types -/

/-- All structs that the type mentions are as `known` says. -/
inductive Ty.Within (known : String → Prop) : Ty → Prop
  | prim (prim : Prim) : Within known (.prim prim)
  | ptr {pointee : Ty} {mutable : Bool} (part : Within known pointee) :
      Within known (.ptr pointee mutable)
  | array {elem : Ty} {len : UInt64} (part : Within known elem) : Within known (.array elem len)
  | struct {name : String} (found : known name) : Within known (.struct name)
  | slice {elem : Ty} (part : Within known elem) : Within known (.slice elem)
  | func {params : List Ty} {ret : Ty} (parts : ∀ param ∈ params, Within known param)
      (part : Within known ret) : Within known (.func params ret)
  | label : Within known .label
  | unresolved (name : String) : Within known (.unresolved name)

theorem Ty.Within.mono {known known' : String → Prop} {ty : Ty} (within : ty.Within known)
    (more : ∀ name, known name → known' name) : ty.Within known' := by
  induction within with
  | prim prim => exact .prim prim
  | ptr _ inductionHypothesis => exact .ptr inductionHypothesis
  | array _ inductionHypothesis => exact .array inductionHypothesis
  | struct found => exact .struct (more _ found)
  | slice _ inductionHypothesis => exact .slice inductionHypothesis
  | func _ _ each inductionHypothesis => exact .func each inductionHypothesis
  | label => exact .label
  | unresolved name => exact .unresolved name

/-- The type of a function is known when those of its parameters and its result are. -/
theorem Function.signature_within {known : String → Prop} {function : Function} :
    function.signature.Within known ↔
      (∀ param ∈ function.params, param.ty.Within known) ∧ function.ret.Within known := by
  constructor
  · intro within
    cases within with
    | func parts part => exact ⟨List.forall_mem_map.1 parts, part⟩
  · rintro ⟨parts, part⟩
    exact .func (List.forall_mem_map.2 parts) part

/-- The struct is declared with all its fields. -/
def Module.Knows (target : Module) (name : String) : Prop :=
  ∃ fields, target.structFields? name = some fields

theorem Module.Knows.of_types {first second : Module} {name : String} (known : first.Knows name)
    (same : second.types = first.types) : second.Knows name := by
  obtain ⟨fields, stored⟩ := known
  exact ⟨fields, (structFields?_of_types same name).trans stored⟩

end TreeLowering.Ir

namespace TreeLowering.Lowering

open TreeLowering.Ir TreeLowering.Tree

/-! ### Declarations of structs -/

/-- A struct that is declared has the fields it was declared with. -/
theorem structFields?_declareType_self {target second : Module} {name : String} {fields : List Ty}
    (declared : target.declareType name fields = .ok () second) :
    second.structFields? name = some fields := by
  rcases Module.declareType_ok declared with ⟨missing, rfl⟩ | ⟨position, stored, _, rfl⟩ |
    ⟨found, rfl⟩
  · rw [Tables.structFields?, Module.typeDef?_addType, missing, Option.none_or, if_pos rfl]
    rfl
  · rw [Tables.structFields?, Module.typeDef?_setFields stored, if_pos rfl]
    rfl
  · rw [Tables.structFields?, found]
    rfl

/-- A struct stays declared when others are. -/
theorem knows_declareType {target second : Module} {name other : String} {fields : List Ty}
    (declared : target.declareType name fields = .ok () second) (known : target.Knows other) :
    second.Knows other := by
  by_cases same : other = name
  · exact ⟨fields, same ▸ structFields?_declareType_self declared⟩
  · obtain ⟨found, stored⟩ := known
    exact ⟨found, (structFields?_declareType_of_ne declared same).trans stored⟩

/-! ### Nothing half done -/

/-- The struct is declared in full, or its fields are being mapped. -/
def TypeState.Sees (source : Source) (state : TypeState) (name : String) : Prop :=
  state.target.Knows name ∨ ∃ ty ∈ state.memo.pending, ∃ definition,
    source.program.types.kind ty = .struct definition ∧ source.names.text definition.name = name

/-- Every struct has the fields that its definition says, and whatever is mentioned is seen. -/
structure TypeState.Closed (source : Source) (state : TypeState) : Prop where
  known : ∀ ty mapped, state.memo.known.lookup ty = some mapped →
    mapped = source.translation ty ∧ mapped.Within (state.Sees source)
  fields : ∀ name fields, state.target.structFields? name = some fields →
    (∃ ty definition, source.program.types.kind ty = .struct definition ∧
      source.names.text definition.name = name ∧
      fields = definition.fields.map fun field => source.translation field.2) ∧
    ∀ field ∈ fields, field.Within (state.Sees source)

/-- The same structs are being mapped, and no struct is forgotten. -/
structure TypeState.Leads (before after : TypeState) : Prop where
  pending : after.memo.pending = before.memo.pending
  knows : ∀ name, before.target.Knows name → after.target.Knows name

namespace TypeState

variable {source : Source} {first second third state : TypeState}

theorem Leads.refl (state : TypeState) : state.Leads state := ⟨rfl, fun _ => id⟩

theorem Leads.trans (earlier : first.Leads second) (later : second.Leads third) :
    first.Leads third :=
  ⟨later.pending.trans earlier.pending, fun name known => later.knows name (earlier.knows name known)⟩

theorem Leads.sees (leads : first.Leads second) {name : String} (seen : first.Sees source name) :
    second.Sees source name := by
  rcases seen with known | waiting
  · exact .inl (leads.knows name known)
  · exact .inr (leads.pending ▸ waiting)

/-- Seeing more is no loss when the structs and the memory are the same. -/
theorem Closed.of_sees (closed : first.Closed source)
    (known : second.memo.known = first.memo.known)
    (fields : ∀ name, second.target.structFields? name = first.target.structFields? name)
    (sees : ∀ name, first.Sees source name → second.Sees source name) : second.Closed source := by
  refine ⟨fun ty mapped found => ?_, fun name found stored => ?_⟩
  · rw [known] at found
    obtain ⟨right, within⟩ := closed.known ty mapped found
    exact ⟨right, within.mono sees⟩
  · rw [fields] at stored
    obtain ⟨canonical, within⟩ := closed.fields name found stored
    exact ⟨canonical, fun field member => (within field member).mono sees⟩

/-- What is learned about a type may be remembered. -/
theorem Closed.remember (closed : state.Closed source) {ty : TypeId} {mapped : Ty}
    (right : mapped = source.translation ty) (within : mapped.Within (state.Sees source)) :
    TypeState.Closed source
      { state with memo := { state.memo with known := (ty, mapped) :: state.memo.known } } := by
  refine ⟨fun other mapped' found => ?_, closed.fields⟩
  rw [lookup_remember] at found
  split at found
  · next same =>
    cases found
    exact ⟨same ▸ right, within⟩
  · exact closed.known other mapped' found

end TypeState

/-! ### The mapping -/

section Mapping

variable {source : Source} {state : TypeState}

/-- Mapping a part gives its translation and leaves nothing half done. -/
def MapsClosed (source : Source) (mapPart : TypeId → TypeM Ty) (part : TypeId) : Prop :=
  ∀ state : TypeState, state.Closed source → Returns (mapPart part) state fun mapped after =>
    after.Closed source ∧ state.Leads after ∧ mapped = source.translation part ∧
      mapped.Within (after.Sees source)

theorem returns_mapAll {α : Type} {mapPart : TypeId → TypeM Ty} {items : List α}
    {part : α → TypeId} (parts : ∀ item ∈ items, MapsClosed source mapPart (part item))
    (closed : state.Closed source) :
    Returns (items.mapM fun item => mapPart (part item)) state fun mapped after =>
      after.Closed source ∧ state.Leads after ∧
        mapped = items.map (fun item => source.translation (part item)) ∧
        ∀ ty ∈ mapped, ty.Within (after.Sees source) := by
  induction items generalizing state with
  | nil => exact returns_pure.2 ⟨closed, .refl state, rfl, nofun⟩
  | cons item rest inductionHypothesis =>
    rw [List.mapM_cons, returns_bind]
    refine (parts item List.mem_cons_self state closed).mono ?_
    rintro mapped middle ⟨closed', leads, right, within⟩
    rw [returns_bind]
    refine (inductionHypothesis (fun item member => parts item (List.mem_cons_of_mem _ member))
      closed').mono ?_
    rintro others after ⟨closed'', leads', rights, withins⟩
    refine returns_pure.2 ⟨closed'', leads.trans leads', by rw [right, rights, List.map_cons], ?_⟩
    intro ty member
    rcases List.mem_cons.1 member with rfl | member
    · exact within.mono fun _ => leads'.sees
    · exact withins ty member

theorem returns_mapShape {mapPart : TypeId → TypeM Ty} {kind : TypeKind}
    (plain : ∀ definition, kind ≠ .struct definition)
    (parts : ∀ part ∈ kind.parts, MapsClosed source mapPart part) (closed : state.Closed source) :
    Returns (mapShape source mapPart kind) state fun mapped after =>
      after.Closed source ∧ state.Leads after ∧
        mapped = translateShape source source.translation kind ∧
        mapped.Within (after.Sees source) := by
  cases kind with
  | struct definition => exact absurd rfl (plain definition)
  | str => exact returns_pure.2 ⟨closed, .refl state, rfl, .slice (.prim .u8)⟩
  | slice elem =>
    unfold mapShape
    rw [returns_bind]
    refine (parts elem List.mem_cons_self state closed).mono ?_
    rintro _ after ⟨closed', leads, rfl, within⟩
    exact returns_pure.2 ⟨closed', leads, rfl, .slice within⟩
  | reference pointee mutable =>
    unfold mapShape
    rw [returns_bind]
    refine (parts pointee List.mem_cons_self state closed).mono ?_
    rintro _ after ⟨closed', leads, rfl, within⟩
    cases shape : source.program.types.kind pointee <;>
      refine returns_pure.2 ⟨closed', leads, by simp only [translateShape, shape], ?_⟩ <;>
      first | exact within | exact .ptr within
  | array elem len =>
    unfold mapShape
    rw [returns_bind]
    refine (parts elem List.mem_cons_self state closed).mono ?_
    rintro _ after ⟨closed', leads, rfl, within⟩
    exact returns_pure.2 ⟨closed', leads, rfl, .array within⟩
  | function params ret =>
    unfold mapShape
    rw [returns_bind]
    refine (returns_mapAll (fun part member => parts part (List.mem_cons_of_mem _ member))
      closed).mono ?_
    rintro mapped middle ⟨closed', leads, rights, withins⟩
    rw [returns_bind]
    refine (parts ret List.mem_cons_self middle closed').mono ?_
    rintro _ after ⟨closed'', leads', rfl, within⟩
    refine returns_pure.2 ⟨closed'', leads.trans leads', by rw [translateShape, rights], ?_⟩
    exact .func (fun ty member => (withins ty member).mono fun _ => leads'.sees) within
  | infer => exact returns_pure.2 ⟨closed, .refl state, rfl, .unresolved _⟩
  | _ => exact returns_pure.2 ⟨closed, .refl state, rfl, .prim _⟩

theorem returns_whileOpen {α : Type} {ty : TypeId} {name : String} {action : TypeM α}
    {post : α → TypeState → Prop} (returns : Returns action
      ⟨{ state.memo with pending := ty :: state.memo.pending }, state.target.declareName name⟩
      fun result after => post result (TypeM.closeStruct ty after)) :
    Returns (TypeM.whileOpen ty name action) state post := by
  have opened : (TypeM.openStruct ty name *> action) state = action
      ⟨{ state.memo with pending := ty :: state.memo.pending }, state.target.declareName name⟩ := by
    rw [seqRight_eq_bind]
    rfl
  intro result after returned
  unfold TypeM.whileOpen at returned
  rw [opened] at returned
  split at returned
  · next found => 
    cases returned
    exact returns _ _ found
  · cases returned

theorem returns_declareStruct {name : String} {fields : List Ty} {post : Unit → TypeState → Prop}
    (holds : ∀ target, state.target.declareType name fields = .ok () target →
      post () { state with target }) :
    Returns (TypeM.declareStruct name fields) state post := by
  intro result after returned
  unfold TypeM.declareStruct at returned
  split at returned
  · next declared =>
    cases returned
    exact holds _ declared
  · cases returned

theorem returns_mapStruct {mapField : TypeId → TypeM Ty} {ty : TypeId} {definition : StructDef}
    (mappable : source.Mappable) (struct : source.program.types.kind ty = .struct definition)
    (fields : ∀ field ∈ definition.fields, MapsClosed source mapField field.2)
    (closed : state.Closed source) :
    Returns (mapStruct source mapField ty definition) state fun mapped after =>
      after.Closed source ∧ state.Leads after ∧ mapped = source.translation ty ∧
        mapped.Within (after.Sees source) := by
  have right := (mappable.translation_struct struct).symm
  unfold mapStruct
  rw [returns_bind, returns_get]
  split
  · next waiting =>
    refine returns_pure.2 ⟨closed, .refl state, right, .struct (.inr ?_)⟩
    exact ⟨ty, by simpa using waiting, definition, struct, rfl⟩
  rw [returns_bind]
  have opened : TypeState.Closed source
      ⟨{ state.memo with pending := ty :: state.memo.pending },
        state.target.declareName (source.names.text definition.name)⟩ := by
    refine closed.of_sees rfl (structFields?_declareName _ _) fun name seen => ?_
    rcases seen with ⟨found, stored⟩ | ⟨other, waiting, rest⟩
    · exact .inl ⟨found, (structFields?_declareName _ _ _).trans stored⟩
    · exact .inr ⟨other, List.mem_cons_of_mem _ waiting, rest⟩
  refine returns_whileOpen ((returns_mapAll fields opened).mono ?_)
  rintro mapped after ⟨closed', leads, rights, withins⟩
  have pending : (TypeM.closeStruct ty after).memo.pending = state.memo.pending := by
    show after.memo.pending.erase ty = _
    rw [leads.pending, List.erase_cons_head]
  rw [returns_bind]
  refine returns_declareStruct fun target declared => ?_
  rw [returns_bind]
  refine returns_modify.2 (returns_pure.2 ?_)
  have now := structFields?_declareType_self declared
  have kept : ∀ name, after.target.Knows name → target.Knows name := fun _ =>
    knows_declareType declared
  -- the struct that no longer waits is declared by now
  have sees : ∀ name, after.Sees source name →
      TypeState.Sees source ⟨(TypeM.closeStruct ty after).memo, target⟩ name := by
    rintro name (known | ⟨other, waiting, definition', struct', rfl⟩)
    · exact .inl (kept name known)
    · rw [leads.pending] at waiting
      rcases List.mem_cons.1 waiting with rfl | waiting
      · cases struct.symm.trans struct'
        exact .inl ⟨mapped, now⟩
      · exact .inr ⟨other, pending ▸ waiting, definition', struct', rfl⟩
  have done : TypeState.Closed source ⟨(TypeM.closeStruct ty after).memo, target⟩ := by
    refine ⟨fun other mapped' found => ?_, fun name found stored => ?_⟩
    · obtain ⟨right', within⟩ := closed'.known other mapped' found
      exact ⟨right', within.mono sees⟩
    · by_cases same : name = source.names.text definition.name
      · rw [same] at stored
        cases now.symm.trans stored
        exact ⟨⟨ty, definition, struct, same.symm, rights⟩,
          fun field member => (withins field member).mono sees⟩
      · obtain ⟨canonical, within⟩ := closed'.fields name found
          ((structFields?_declareType_of_ne declared same).symm.trans stored)
        exact ⟨canonical, fun field member => (within field member).mono sees⟩
  refine ⟨done.remember right (.struct (.inl ⟨mapped, now⟩)), ⟨pending, fun name known => ?_⟩, right,
    .struct (.inl ⟨mapped, now⟩)⟩
  obtain ⟨found, stored⟩ := known
  exact kept name (leads.knows name ⟨found, (structFields?_declareName _ _ _).trans stored⟩)

theorem returns_mapTypeWithin (mappable : source.Mappable) (fuel : Nat) (ty : TypeId) :
    MapsClosed source (mapTypeWithin source fuel) ty := by
  induction fuel generalizing ty with
  | zero => exact fun _ _ _ _ impossible => by cases impossible
  | succ fuel inductionHypothesis =>
    intro state closed
    unfold mapTypeWithin
    rw [returns_bind, returns_get]
    cases known : state.memo.known.lookup ty with
    | some mapped =>
      obtain ⟨right, within⟩ := closed.known ty mapped known
      exact returns_pure.2 ⟨closed, .refl state, right, within⟩
    | none =>
    dsimp only
    split
    · next definition struct =>
      exact returns_mapStruct mappable struct (fun field _ => inductionHypothesis field.2) closed
    · next kind plain =>
      rw [returns_bind]
      refine (returns_mapShape plain (fun part _ => inductionHypothesis part) closed).mono ?_
      rintro mapped after ⟨closed', leads, right, within⟩
      rw [← mappable.translation_eq] at right
      rw [returns_bind]
      refine returns_modify.2 (returns_pure.2 ?_)
      exact ⟨closed'.remember right within, ⟨leads.pending, leads.knows⟩, right, within⟩

/-- The mapping is between two types: what it remembers is right, and nothing is half done. -/
structure TypeState.Complete (source : Source) (state : TypeState) : Prop where
  truthful : state.Truthful source
  idle : state.memo.pending = []
  closed : state.Closed source

theorem TypeState.Complete.knows (complete : state.Complete source) {name : String}
    (seen : state.Sees source name) : state.target.Knows name := by
  refine seen.resolve_right ?_
  rintro ⟨ty, waiting, _⟩
  rw [complete.idle] at waiting
  cases waiting

theorem TypeState.Complete.start (source : Source) (name : String) :
    TypeState.Complete source ⟨.empty, .empty name⟩ :=
  ⟨⟨nofun, nofun, List.nodup_nil, nofun⟩, rfl, ⟨nofun, nofun⟩⟩

/-- Functions and globals do not matter to types. -/
theorem TypeState.Complete.of_types (complete : state.Complete source) {target : Module}
    (same : target.types = state.target.types) :
    TypeState.Complete source { state with target } := by
  have fields := Module.structFields?_of_types same
  obtain ⟨⟨known, pending, distinct, declared⟩, idle, closed⟩ := complete
  refine ⟨⟨known, pending, distinct, fun name found stored => ?_⟩, idle,
    closed.of_sees rfl fields fun name seen => ?_⟩
  · exact declared name found ((fields name).symm.trans stored)
  · rcases seen with ⟨found, stored⟩ | waiting
    · exact .inl ⟨found, (fields name).trans stored⟩
    · exact .inr waiting

/-- A type is mapped in full, and nothing but struct types is added. -/
theorem TypeState.Complete.mapType (mappable : source.Mappable) (complete : state.Complete source)
    (ty : TypeId) :
    Ends (mapType source ty) state
      (fun mapped after => after.Complete source ∧ mapped = source.translation ty ∧
        mapped.Within after.target.Knows ∧ OnlyTypes state after ∧
        ∀ name, state.target.Knows name → after.target.Knows name) fun _ _ => False := by
  have mapped := ends_mapType mappable complete.truthful complete.idle ty
  unfold Ends at mapped ⊢
  cases ended : Lowering.mapType source ty state with
  | error cause after =>
    rw [ended] at mapped
    exact mapped
  | ok found after =>
    rw [ended] at mapped
    obtain ⟨⟨truthful, idle⟩, right⟩ := mapped
    obtain ⟨closed, leads, _, within⟩ := returns_mapTypeWithin mappable _ ty state complete.closed
      found after ended
    have complete' : after.Complete source := ⟨truthful, idle, closed⟩
    exact ⟨complete', right, within.mono fun _ => complete'.knows,
      (ensures_mapTypeWithin source _ ty state).of_ok ended, leads.knows⟩

end Mapping

/-! ### Layouts -/

section Layouts

variable {source : Source} {first second : TypeState}

/-- A struct has the same fields wherever it is declared in full. -/
theorem TypeState.Complete.structFields?_eq (mappable : source.Mappable)
    (complete : first.Complete source) (complete' : second.Complete source) {name : String}
    {fields : List Ty} (stored : first.target.structFields? name = some fields)
    (known : second.target.Knows name) : second.target.structFields? name = some fields := by
  obtain ⟨fields', stored'⟩ := known
  obtain ⟨⟨ty, definition, struct, named, rfl⟩, _⟩ := complete.closed.fields name fields stored
  obtain ⟨⟨ty', definition', struct', named', rfl⟩, _⟩ :=
    complete'.closed.fields name fields' stored'
  obtain rfl := mappable.struct_eq_of_text struct struct' (named.trans named'.symm)
  cases struct.symm.trans struct'
  exact stored'

/-- A type has one layout wherever its structs are declared in full. -/
theorem TypeState.Complete.layoutWithin_eq (mappable : source.Mappable)
    (complete : first.Complete source) (complete' : second.Complete source) (depth : Nat) {ty : Ty}
    (within : ty.Within first.target.Knows) (within' : ty.Within second.target.Knows) :
    second.target.layoutWithin depth ty = first.target.layoutWithin depth ty := by
  induction depth generalizing ty with
  | zero =>
    unfold Module.layoutWithin
    rfl
  | succ depth inductionHypothesis =>
    cases within with
    | array part =>
      cases within' with
      | array part' => simp only [Module.layoutWithin, inductionHypothesis part part']
    | @struct name found =>
      cases within' with
      | struct found' =>
        obtain ⟨fields, stored⟩ := found
        have stored' := complete.structFields?_eq mappable complete' stored found'
        have parts := (complete.closed.fields name fields stored).2
        have parts' := (complete'.closed.fields name fields stored').2
        have same : ∀ field ∈ fields, second.target.layoutWithin depth field =
            first.target.layoutWithin depth field := fun field member =>
          inductionHypothesis ((parts field member).mono fun _ => complete.knows)
            ((parts' field member).mono fun _ => complete'.knows)
        simp only [Module.layoutWithin, stored, stored']
        rw [Layout.foldlM_place_congr same]
    | _ => simp only [Module.layoutWithin]

theorem TypeState.Complete.sizeOf_eq (mappable : source.Mappable)
    (complete : first.Complete source) (complete' : second.Complete source) {ty : Ty}
    (within : ty.Within first.target.Knows) (within' : ty.Within second.target.Knows) :
    second.target.sizeOf ty = first.target.sizeOf ty := by
  rw [Module.sizeOf, Module.layout, complete.layoutWithin_eq mappable complete' _ within within',
    Module.sizeOf, Module.layout]

end Layouts

end TreeLowering.Lowering
