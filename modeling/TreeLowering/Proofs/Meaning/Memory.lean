/-
This file proves what loads and stores of stack slots do in a run. A slot is read as it was written
last, and a store leaves the other slots alone, because every slot has a region of its own. Names are
bound to different slots, so assigning to one variable leaves the others as they are.
-/

import TreeLowering.Proofs.Meaning.Construct

namespace TreeLowering.Lowering

open TreeLowering.Ir TreeLowering.Tree Builder

namespace Run

variable {run : Run} {site : Site} {now later : Builder} {id : BlockId}
  {previous : Option BlockId} {state : State} {slot : ValueName} {scalar : Scalar} {inst : Instruction}

/-! ### Instructions -/

theorem size?_prim (target : Module) (prim : Prim) :
    target.size? (.prim prim) = some prim.size.toNat := rfl

theorem length_encode (scalar : Scalar) :
    scalar.datum.encode.length = scalar.prim.size.toNat := by
  rw [Scalar.datum, Datum.encode, length_wordBytes, Prim.size_eq]

theorem compute_load {ty : Ty} (home : state.regs slot = some (.address ⟨run.home slot, 0⟩))
    (stores : run.Stores state slot scalar) :
    run.setting.compute? previous (.prim scalar.prim) (.load (.reg slot ty)) state =
      some (scalar.datum, state.store) := by
  have decoded : Datum.decode? (.prim scalar.prim)
      (state.store.read ⟨run.home slot, 0⟩ scalar.prim.size.toNat) = some scalar.datum := by
    rw [stores]
    exact Datum.decode?_encode scalar.prim scalar.bits
  simp only [Setting.compute?, Setting.address?, Setting.operand?, home, Option.bind_eq_bind,
    Option.bind_some, size?_prim, decoded, Option.map_some]

/-- The state after a scalar was stored. -/
def stored (run : Run) (state : State) (name slot : ValueName) (scalar : Scalar) : State :=
  state.set name (.word 0 0) (state.store.write ⟨run.home slot, 0⟩ scalar.datum.encode)

theorem compute_store {value : Value} {ty ty' : Ty}
    (home : state.regs slot = some (.address ⟨run.home slot, 0⟩))
    (shows : run.Shows state value scalar) :
    run.setting.compute? previous ty (.store (.reg slot ty') value) state =
      some (.word 0 0, state.store.write ⟨run.home slot, 0⟩ scalar.datum.encode) := by
  have operand : run.setting.operand? state.regs (.reg slot ty') =
      some (.address ⟨run.home slot, 0⟩) := home
  simp only [Setting.compute?, Setting.address?, operand, shows.datum, Option.bind_eq_bind,
    Option.bind_some, Option.pure_def]

theorem stores_stored (run : Run) (state : State) (name slot : ValueName) (scalar : Scalar) :
    run.Stores (run.stored state name slot scalar) slot scalar := by
  show Store.read (state.store.write _ _) _ _ = _
  rw [← length_encode]
  exact Store.read_write _ _ _

theorem bytes_stored {name other : ValueName} (apart : run.home other ≠ run.home slot) (offset : Int) :
    (run.stored state name slot scalar).store.bytes ⟨run.home other, offset⟩ =
      state.store.bytes ⟨run.home other, offset⟩ :=
  Store.bytes_write_of_ne apart

theorem regs_stored {name other : ValueName} (differs : other ≠ name) :
    (run.stored state name slot scalar).regs other = state.regs other := if_neg differs

/-! ### Slots -/

/-- Whether the name is that of a slot of the finished function. -/
def Reserved (run : Run) (name : ValueName) : Prop := ∃ slot ∈ run.function.slots, slot.name = name

theorem Reserved.home {locals : Locals} (reserved : run.Reserved slot)
    (holds : run.Holds site locals state) :
    state.regs slot = some (.address ⟨run.home slot, 0⟩) := by
  obtain ⟨inst, member, rfl⟩ := reserved
  exact holds.homes inst member

theorem home_ne {other : ValueName} (reserved : run.Reserved slot) (reserved' : run.Reserved other)
    (differs : other ≠ slot) : run.home other ≠ run.home slot := by
  obtain ⟨inst, member, rfl⟩ := reserved
  obtain ⟨inst', member', rfl⟩ := reserved'
  intro same
  exact differs (run.apart inst' member' inst member same)

theorem reserved_of_bound {body : Function} (bound : Bound body site)
    (grown : body.Extends run.function) {name : ValueName} (member : name ∈ slotNames site.env.scopes) :
    run.Reserved name := by
  obtain ⟨inst, reserved, named⟩ := bound.reserves member
  exact ⟨inst, grown.slots inst reserved, named⟩

/-- A store keeps everything but the slot it writes to. -/
theorem Kept.stored {body : Function} {scopes : Scopes Binding} {name : ValueName}
    (fresh : ¬ body.Sets name) (grown : body.Extends run.function) (reserved : run.Reserved slot)
    (covered : ∀ inst ∈ body.slots, inst.name = slot → slot ∈ slotNames scopes) :
    run.Kept body scopes state (run.stored state name slot scalar) := by
  refine ⟨fun other sets => regs_stored fun same => fresh (same ▸ sets),
    fun inst member unbound offset => bytes_stored ?_ offset⟩
  refine home_ne reserved ⟨inst, grown.slots inst member, rfl⟩ fun same => unbound ?_
  rw [same]
  exact covered inst member same

/-- Writing to a slot that no name is bound to leaves the variables as they are. -/
theorem Holds.stored {locals : Locals} (holds : run.Holds site locals state)
    (bound : Bound now.body site) (emits : Emits now later id inst)
    (grown : later.body.Extends run.function) (reserved : run.Reserved slot)
    (unbound : slot ∉ slotNames site.env.scopes) :
    run.Holds site locals (run.stored state inst.name slot scalar) := by
  have grown' := emits.leads.grown.trans grown
  refine holds.of_same bound (fun slot' member => regs_stored (unslotted emits grown slot' member))
    (fun name sets => regs_stored fun same => emits.fresh (same ▸ sets))
    fun name member offset => bytes_stored ?_ offset
  exact home_ne reserved (reserved_of_bound bound grown' member) fun same => unbound (same ▸ member)

/-- Only one name is bound to a slot. -/
theorem slotName_ne {name : Name} {binding : Binding} {scopes : Scopes Binding}
    {before after : List (Name × Binding)} (distinct : (slotNames scopes).Nodup)
    (named : binding.slotName? = some slot) (split : scopes.flatten = before ++ (name, binding) :: after)
    {entry : Name × Binding} (member : entry ∈ before ++ after) : entry.2.slotName? ≠ some slot := by
  intro same
  simp only [slotNames, split, List.filterMap_append, List.filterMap_cons, named] at distinct
  rw [List.nodup_middle, List.nodup_cons, ← List.filterMap_append] at distinct
  exact distinct.1 (List.mem_filterMap.2 ⟨entry, member, same⟩)

/-- Writing to the slot of a variable assigns to the variable. -/
theorem Holds.write {locals : Locals} {name : Name} {ty : Ty} {prim : Prim} {mutable : Bool}
    (holds : run.Holds site locals state) (bound : Bound now.body site)
    (emits : Emits now later id inst) (grown : later.body.Extends run.function)
    (found : site.env.resolve? name = some (.slot (.reg slot (.ptr ty true)) ty mutable))
    (typed : site.prims.resolve? name = some prim) (same : scalar.prim = prim)
    (inhabited : prim ≠ .never) (slotted : ty = .prim scalar.prim) :
    run.Holds site (locals.set name (some scalar)) (run.stored state inst.name slot scalar) := by
  have grown' := emits.leads.grown.trans grown
  have listed := Scopes.mem_of_resolve? found
  have member : slot ∈ slotNames site.env.scopes := List.mem_filterMap.2 ⟨_, listed, rfl⟩
  have reserved := reserved_of_bound bound grown' member
  refine ⟨fun slot' inside => (regs_stored (unslotted emits grown slot' inside)).trans
    (holds.homes slot' inside), holds.cells.set found ?_ ?_, holds.typed.set typed ?_ ?_⟩
  · intro scalar' equal
    cases equal
    exact ⟨slotted, stores_stored run state inst.name slot scalar⟩
  · intro before after split entry inside content carries
    have inside' : entry ∈ site.env.scopes.flatten := by
      rw [split]
      exact List.mem_append.2 ((List.mem_append.1 inside).imp_right (List.mem_cons_of_mem _))
    have differs : entry.2.slotName? ≠ some slot := slotName_ne bound.distinct rfl split inside
    obtain ⟨prim', suits⟩ := bound.entries.mem_right inside'
    refine carries.of_same suits (fun other sets => regs_stored fun same =>
      emits.fresh (same ▸ sets)) fun other named offset => bytes_stored ?_ offset
    exact home_ne reserved (reserved_of_bound bound grown'
      (List.mem_filterMap.2 ⟨entry, inside', named⟩)) fun same => differs (same ▸ named)
  · intro scalar' equal
    cases equal
    exact ⟨same, inhabited⟩
  · exact fun _ _ _ _ _ _ carries => carries

end Run

end TreeLowering.Lowering
