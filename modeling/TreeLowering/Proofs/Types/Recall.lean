/-
This file follows what the mapping of types remembers, in any program. Whatever is kept by every
single thing that is remembered is kept by the mapping of any type, and the mapping fails only when
it goes too deep or meets a struct with two different field lists. In particular the memory stays
right about primitive types, which are mapped to themselves then.
-/

import TreeLowering.Proofs.Meaning.Evaluate
import TreeLowering.Proofs.Types.Translation

namespace TreeLowering.Tree

open TreeLowering.Ir

/-- The primitive type of a shape, that of characters included. -/
def TypeKind.primitive? : TypeKind → Option Prim
  | char => some .char
  | kind => kind.prim?

theorem TypeKind.primitive?_of_prim? {kind : TypeKind} {prim : Prim}
    (typed : kind.prim? = some prim) : kind.primitive? = some prim := by
  cases kind <;> cases typed <;> rfl

def Program.primitive? (program : Program) (ty : TypeId) : Option Prim :=
  (program.types.kind ty).primitive?

end TreeLowering.Tree

namespace TreeLowering.Lowering

open TreeLowering.Ir TreeLowering.Tree

variable {source : Source}

/-! ### What the mapping keeps -/

/-- What is remembered of a type: a primitive type is itself. -/
def Recalled (source : Source) (ty : TypeId) (mapped : Ty) : Prop :=
  ∀ prim, source.program.primitive? ty = some prim → mapped = .prim prim

/-- What holds of the memory holds after another type is remembered, and the errors of the mapping
are excused. -/
structure Mindful (source : Source) (holds : TypeMemo → Prop) (excused : Error → Prop) : Prop where
  remembers : ∀ {memo ty mapped}, holds memo → Recalled source ty mapped →
    holds { memo with known := (ty, mapped) :: memo.known }
  waits : ∀ {memo} pending, holds memo → holds { memo with pending }
  deep : excused .malformedTree
  conflicts : ∀ {name existing new}, existing ≠ new →
    excused (.ir (.typeConflict name existing new))

theorem mapShape_primitive {mapPart : TypeId → TypeM Ty} {kind : TypeKind} {prim : Prim}
    (typed : kind.primitive? = some prim) : mapShape source mapPart kind = pure (.prim prim) := by
  cases kind <;> cases typed <;> rfl

section Mindful

variable {α β : Type} {holds : TypeMemo → Prop} {excused : Error → Prop}
  {mapPart : TypeId → TypeM Ty}

/-- The step keeps what holds of the memory, and its errors are excused. -/
def Heeds (holds : TypeMemo → Prop) (excused : Error → Prop) (action : TypeM α) : Prop :=
  ∀ state, holds state.memo →
    Ends action state (fun _ after => holds after.memo) fun cause _ => excused cause

namespace Heeds

theorem pure (result : α) : Heeds holds excused (pure result) := fun _ kept => kept

theorem bind {action : TypeM α} {next : α → TypeM β} (first : Heeds holds excused action)
    (rest : ∀ result, Heeds holds excused (next result)) : Heeds holds excused (action >>= next) := by
  intro state kept
  rw [ends_bind]
  exact (first state kept).mono (fun result after kept' => rest result after kept') fun _ _ => id

theorem mapM {items : List β} {action : β → TypeM α} (each : ∀ item, Heeds holds excused (action item)) :
    Heeds holds excused (items.mapM action) := by
  induction items with
  | nil => exact .pure _
  | cons item rest inductionHypothesis =>
    rw [List.mapM_cons]
    exact (each item).bind fun _ => inductionHypothesis.bind fun _ => .pure _

theorem mapShape (parts : ∀ ty, Heeds holds excused (mapPart ty)) (kind : TypeKind) :
    Heeds holds excused (mapShape source mapPart kind) := by
  cases kind with
  | slice elem => exact (parts elem).bind fun _ => .pure _
  | array elem len => exact (parts elem).bind fun _ => .pure _
  | reference pointee mutable =>
    refine (parts pointee).bind fun mapped => ?_
    split <;> exact .pure _
  | function params ret =>
    exact (mapM parts).bind fun _ => (parts ret).bind fun _ => .pure _
  | _ => exact .pure _

end Heeds

namespace Mindful

variable (mindful : Mindful source holds excused)

include mindful

theorem heeds_remember {ty : TypeId} {mapped : Ty} (right : Recalled source ty mapped) :
    Heeds holds excused (TypeM.remember ty mapped) :=
  fun _ kept => mindful.remembers kept right

theorem heeds_declareStruct (name : String) (fields : List Ty) :
    Heeds holds excused (TypeM.declareStruct name fields) := by
  intro state kept
  unfold Ends TypeM.declareStruct
  rcases state.target.declareType_cases name fields with ⟨_, declared⟩ | ⟨_, _, _, declared⟩ |
    ⟨_, declared⟩ | ⟨_, _, differs, declared⟩ <;> rw [declared]
  · exact kept
  · exact kept
  · exact kept
  · exact mindful.conflicts differs

theorem heeds_whileOpen {ty : TypeId} {name : String} {action : TypeM α}
    (inside : Heeds holds excused action) :
    Heeds holds excused (TypeM.whileOpen ty name action) := by
  intro state kept
  rw [ends_whileOpen]
  refine (inside _ (mindful.waits (ty :: state.memo.pending) kept)).mono (fun _ after kept' => ?_)
    fun _ _ => id
  exact mindful.waits (after.memo.pending.erase ty) kept'

theorem heeds_mapStruct (parts : ∀ ty, Heeds holds excused (mapPart ty)) {ty : TypeId}
    {definition : StructDef} (struct : source.program.types.kind ty = .struct definition) :
    Heeds holds excused (mapStruct source mapPart ty definition) := by
  refine Heeds.bind (fun _ kept => kept) fun state => ?_
  split
  · exact .pure _
  · refine (mindful.heeds_whileOpen (.mapM fun field : Name × TypeId => parts field.2)).bind
      fun fields => (mindful.heeds_declareStruct _ fields).bind fun _ => ?_
    refine (mindful.heeds_remember fun prim typed => ?_).bind fun _ => .pure _
    rw [Program.primitive?, struct] at typed
    cases typed

/-- The mapping of any type keeps what holds of the memory. -/
theorem heeds_mapType (ty : TypeId) : Heeds holds excused (mapType source ty) := by
  unfold mapType
  generalize source.typeDepth = fuel
  induction fuel generalizing ty with
  | zero => exact fun _ _ => mindful.deep
  | succ fuel inductionHypothesis =>
    refine Heeds.bind (fun _ kept => kept) fun state => ?_
    split
    · exact .pure _
    · split
      · next definition struct => exact mindful.heeds_mapStruct inductionHypothesis struct
      · cases typed : source.program.primitive? ty with
        | some prim =>
          rw [mapShape_primitive typed, pure_bind]
          refine (mindful.heeds_remember fun prim' typed' => ?_).bind fun _ => .pure _
          cases typed.symm.trans typed'
          rfl
        | none =>
          refine (Heeds.mapShape inductionHypothesis _).bind fun mapped =>
            (mindful.heeds_remember fun prim typed' => ?_).bind fun _ => .pure _
          cases typed.symm.trans typed'

end Mindful

end Mindful

/-! ### Primitive types -/

/-- The memory is right about primitive types. -/
def TypeMemo.Recalls (source : Source) (memo : TypeMemo) : Prop :=
  ∀ ty mapped, memo.known.lookup ty = some mapped → Recalled source ty mapped

theorem TypeMemo.Recalls.empty (source : Source) : TypeMemo.empty.Recalls source := nofun

theorem TypeMemo.Recalls.remember {memo : TypeMemo} {ty : TypeId} {mapped : Ty}
    (recalls : memo.Recalls source) (right : Recalled source ty mapped) :
    TypeMemo.Recalls source { memo with known := (ty, mapped) :: memo.known } := by
  intro other mapped' found
  rw [lookup_remember] at found
  split_ifs at found with same
  · cases same
    cases found
    exact right
  · exact recalls other mapped' found

/-- An error that no program causes: a struct is never in conflict with its own field list. -/
def Error.selfConflict : Error := .ir (.typeConflict "" [] [])

/-- No run blames a struct for a conflict with itself, and the memory stays right. -/
theorem mindful_recalls (source : Source) :
    Mindful source (TypeMemo.Recalls source) (· ≠ .selfConflict) where
  remembers := TypeMemo.Recalls.remember
  waits _ := id
  deep := nofun
  conflicts differ same := by
    cases same
    exact differ rfl

end TreeLowering.Lowering
