/-
This file describes what becomes of the code of a function while it is being built. Stack slots stand
at the front of the entry block, and the rest of the code is plain. Plain code only grows at the end
of open blocks, so what the finished function does at the cursor is to run the code that is still to
come. Lowering a construct adds to the block at the cursor and to new blocks, and leaves the other
blocks alone.
-/

import TreeLowering.Proofs.Ssa.Edit
import TreeLowering.Proofs.Flow.Step

namespace TreeLowering.Ir

namespace Function

/-- The instructions of a block that are no stack slots. -/
def plain (function : Function) (id : BlockId) : List Instruction :=
  (function.code id).filter fun inst => !inst.op.isAlloca

/-- The stack slots of a function. -/
def slots (function : Function) : List Instruction :=
  (function.code entryId).filter fun inst => inst.op.isAlloca

/-- Whether some instruction sets a register of that name. -/
def Sets (function : Function) (name : ValueName) : Prop :=
  (∃ id, ∃ inst ∈ function.plain id, inst.name = name) ∨ ∃ slot ∈ function.slots, slot.name = name

/-- The slots come first, and their names are their own. -/
structure Arranged (function : Function) : Prop where
  front : function.code entryId = function.slots ++ function.plain entryId
  inner : ∀ id, id ≠ entryId → function.code id = function.plain id
  distinct : (function.slots.map Instruction.name).Nodup
  apart : ∀ id, ∀ inst ∈ function.plain id, ∀ slot ∈ function.slots, inst.name ≠ slot.name

/-- The second function goes on where the first one is still open. -/
structure Extends (first second : Function) : Prop where
  params : second.params = first.params
  blocks : ∀ id, (first.block? id).isSome = true → (second.block? id).isSome = true
  plain : ∀ id, first.plain id <+: second.plain id
  closed : ∀ id terminator, first.exit? id = some terminator →
    second.exit? id = some terminator ∧ second.plain id = first.plain id
  slots : ∀ slot ∈ first.slots, slot ∈ second.slots

namespace Extends

variable {first second third : Function}

theorem refl (function : Function) : function.Extends function :=
  ⟨rfl, fun _ => id, fun _ => List.prefix_refl _, fun _ _ found => ⟨found, rfl⟩, fun _ => id⟩

theorem trans (earlier : first.Extends second) (later : second.Extends third) :
    first.Extends third := by
  refine ⟨later.params.trans earlier.params, fun id found => later.blocks id (earlier.blocks id found),
    fun id => (earlier.plain id).trans (later.plain id), fun id terminator found => ?_,
    fun slot member => later.slots slot (earlier.slots slot member)⟩
  obtain ⟨found', same⟩ := earlier.closed id terminator found
  obtain ⟨found'', same'⟩ := later.closed id terminator found'
  exact ⟨found'', same'.trans same⟩

theorem sets (extended : first.Extends second) {name : ValueName} (sets : first.Sets name) :
    second.Sets name := by
  rcases sets with ⟨id, inst, member, named⟩ | ⟨slot, member, named⟩
  · exact Or.inl ⟨id, inst, (extended.plain id).subset member, named⟩
  · exact Or.inr ⟨slot, extended.slots slot member, named⟩

end Extends

/-! ### Edits -/

section SameCode

variable {first second : Function} (same : ∀ id, second.code id = first.code id)

include same

theorem plain_of_code (id : BlockId) : second.plain id = first.plain id := by
  rw [plain, same, plain]

theorem slots_of_code : second.slots = first.slots := by
  rw [slots, same, slots]

theorem sets_of_code {name : ValueName} : second.Sets name ↔ first.Sets name := by
  simp only [Sets, plain_of_code same, slots_of_code same]

theorem Arranged.of_code (arranged : first.Arranged) : second.Arranged := by
  refine ⟨?_, fun id inner => ?_, ?_, fun id => ?_⟩
  · rw [same, slots_of_code same, plain_of_code same, arranged.front]
  · rw [same, plain_of_code same, arranged.inner id inner]
  · rw [slots_of_code same]
    exact arranged.distinct
  · rw [slots_of_code same, plain_of_code same]
    exact arranged.apart id

/-- Blocks may be added, and open blocks may be closed. -/
theorem Extends.of_code (params : second.params = first.params)
    (blocks : ∀ id, (first.block? id).isSome = true → (second.block? id).isSome = true)
    (exit : ∀ id terminator, first.exit? id = some terminator → second.exit? id = some terminator) :
    first.Extends second where
  params := params
  blocks := blocks
  plain id := plain_of_code same id ▸ List.prefix_refl _
  closed id terminator closed := ⟨exit id terminator closed, plain_of_code same id⟩
  slots _ member := slots_of_code same ▸ member

end SameCode

variable {function : Function} {id other : BlockId} {block : Block} {inst : Instruction}

theorem plain_append (found : function.block? id = some block) (plain : inst.op.isAlloca = false) :
    (function.modifyBlock id fun found => found.append inst).plain other =
      if other = id then function.plain id ++ [inst] else function.plain other := by
  rw [Function.plain, code_append found]
  split_ifs
  · rw [List.filter_append, List.filter_cons_of_pos (by simp [plain]), List.filter_nil]
    rfl
  · rfl

theorem slots_append (found : function.block? id = some block) (plain : inst.op.isAlloca = false) :
    (function.modifyBlock id fun found => found.append inst).slots = function.slots := by
  rw [slots, code_append found]
  split_ifs with entry
  · rw [List.filter_append, List.filter_cons_of_neg (by simp [plain]), List.filter_nil,
      List.append_nil, ← entry]
    rfl
  · rfl

theorem Arranged.append (arranged : function.Arranged) (found : function.block? id = some block)
    (plain : inst.op.isAlloca = false) (fresh : ¬ function.Sets inst.name) :
    (function.modifyBlock id fun found => found.append inst).Arranged := by
  refine ⟨?_, fun other inner => ?_, ?_, fun other inst' member slot slots => ?_⟩
  · rw [slots_append found plain, plain_append found plain, code_append found]
    split_ifs with entry
    · rw [← entry, arranged.front, List.append_assoc]
    · exact arranged.front
  · rw [plain_append found plain, code_append found]
    split_ifs with same
    · rw [arranged.inner id (same ▸ inner)]
    · exact arranged.inner other inner
  · rw [slots_append found plain]
    exact arranged.distinct
  · rw [slots_append found plain] at slots
    rw [plain_append found plain] at member
    split_ifs at member with same
    · rcases List.mem_append.1 member with old | new
      · exact arranged.apart id inst' old slot slots
      · rw [List.mem_singleton.1 new]
        exact fun named => fresh (Or.inr ⟨slot, slots, named.symm⟩)
    · exact arranged.apart other inst' member slot slots

theorem sets_append {name : ValueName} (found : function.block? id = some block)
    (plain : inst.op.isAlloca = false)
    (sets : (function.modifyBlock id fun found => found.append inst).Sets name) :
    function.Sets name ∨ name = inst.name := by
  rcases sets with ⟨other, inst', member, named⟩ | ⟨slot, member, named⟩
  · rw [plain_append found plain] at member
    split_ifs at member with same
    · rcases List.mem_append.1 member with old | new
      · exact Or.inl (Or.inl ⟨id, inst', old, named⟩)
      · rw [← named, List.mem_singleton.1 new]
        exact Or.inr rfl
    · exact Or.inl (Or.inl ⟨other, inst', member, named⟩)
  · rw [slots_append found plain] at member
    exact Or.inl (Or.inr ⟨slot, member, named⟩)

/-- An open block goes on with an instruction at its end. -/
theorem Extends.append (found : function.block? id = some block) (plain : inst.op.isAlloca = false)
    (opened : function.exit? id = none) :
    function.Extends (function.modifyBlock id fun found => found.append inst) where
  params := rfl
  blocks other old := by rwa [isSome_block?_modifyBlock]
  plain other := by
    rw [plain_append found plain]
    split_ifs with same
    · rw [same]
      exact List.prefix_append _ _
    · exact List.prefix_refl _
  closed other terminator closed := by
    have exit := exit?_modifyBlock_of_same function id other
      (fun block => (rfl : (block.append inst).terminator = block.terminator))
    refine ⟨exit.trans closed, ?_⟩
    rw [plain_append found plain, if_neg]
    · rintro rfl
      rw [opened] at closed
      cases closed
  slots slot member := by rwa [slots_append found plain]

theorem code_insertSlot (arranged : function.Arranged)
    (found : function.block? entryId = some block) :
    (function.modifyBlock entryId fun found =>
      found.insert function.slots.length inst).code other =
        if other = entryId then function.slots ++ inst :: function.plain entryId
        else function.code other := by
  rw [code_insert found, arranged.front, List.take_left, List.drop_left]

theorem filter_slots (function : Function) :
    (function.slots.filter fun inst => inst.op.isAlloca) = function.slots ∧
      (function.slots.filter fun inst => !inst.op.isAlloca) = [] := by
  rw [slots, List.filter_filter, List.filter_filter]
  simp

theorem filter_plain (function : Function) (id : BlockId) :
    ((function.plain id).filter fun inst => inst.op.isAlloca) = [] ∧
      ((function.plain id).filter fun inst => !inst.op.isAlloca) = function.plain id := by
  rw [plain, List.filter_filter, List.filter_filter]
  simp

theorem plain_insertSlot (arranged : function.Arranged)
    (found : function.block? entryId = some block) (slot : inst.op.isAlloca = true) :
    (function.modifyBlock entryId fun found =>
      found.insert function.slots.length inst).plain other = function.plain other := by
  rw [plain, code_insertSlot arranged found]
  split_ifs with entry
  · rw [List.filter_append, (filter_slots function).2, List.filter_cons_of_neg (by simp [slot]),
      (filter_plain function _).2, List.nil_append, entry]
  · rfl

theorem slots_insertSlot (arranged : function.Arranged)
    (found : function.block? entryId = some block) (slot : inst.op.isAlloca = true) :
    (function.modifyBlock entryId fun found =>
      found.insert function.slots.length inst).slots = function.slots ++ [inst] := by
  rw [slots, code_insertSlot arranged found, if_pos rfl, List.filter_append,
    (filter_slots function).1, List.filter_cons_of_pos (by simp [slot]), (filter_plain function _).1]

theorem sets_insertSlot {name : ValueName} (arranged : function.Arranged)
    (found : function.block? entryId = some block) (slot : inst.op.isAlloca = true)
    (sets : (function.modifyBlock entryId fun found =>
      found.insert function.slots.length inst).Sets name) : function.Sets name ∨ inst.name = name := by
  rcases sets with ⟨id, inst', member, rfl⟩ | ⟨slot', member, rfl⟩
  · rw [plain_insertSlot arranged found slot] at member
    exact Or.inl (Or.inl ⟨id, inst', member, rfl⟩)
  · rw [slots_insertSlot arranged found slot] at member
    rcases List.mem_append.1 member with old | new
    · exact Or.inl (Or.inr ⟨slot', old, rfl⟩)
    · rw [List.mem_singleton.1 new]
      exact Or.inr rfl

/-- A slot more changes no plain code. -/
theorem Extends.insertSlot (arranged : function.Arranged)
    (found : function.block? entryId = some block) (slot : inst.op.isAlloca = true) :
    function.Extends (function.modifyBlock entryId fun found =>
      found.insert function.slots.length inst) where
  params := rfl
  blocks other old := by rwa [isSome_block?_modifyBlock]
  plain other := plain_insertSlot arranged found slot ▸ List.prefix_refl _
  closed other terminator closed := by
    have exit := exit?_modifyBlock_of_same function entryId other fun block =>
      (rfl : (block.insert function.slots.length inst).terminator = block.terminator)
    exact ⟨exit.trans closed, plain_insertSlot arranged found slot⟩
  slots slot' member := by
    rw [slots_insertSlot arranged found slot]
    exact List.mem_append_left _ member

theorem Arranged.insertSlot (arranged : function.Arranged)
    (found : function.block? entryId = some block) (slot : inst.op.isAlloca = true)
    (fresh : ¬ function.Sets inst.name) :
    (function.modifyBlock entryId fun found =>
      found.insert function.slots.length inst).Arranged := by
  refine ⟨?_, fun other inner => ?_, ?_, fun other inst' member slot' slots => ?_⟩
  · rw [slots_insertSlot arranged found slot, plain_insertSlot arranged found slot,
      code_insertSlot arranged found, if_pos rfl, List.append_assoc]
    rfl
  · rw [plain_insertSlot arranged found slot, code_insertSlot arranged found, if_neg inner]
    exact arranged.inner other inner
  · rw [slots_insertSlot arranged found slot, List.map_append, List.nodup_append]
    refine ⟨arranged.distinct, List.nodup_singleton _, fun name member name' member' => ?_⟩
    obtain ⟨slot', inside, rfl⟩ := List.mem_map.1 member
    rw [List.mem_singleton.1 member']
    exact fun named => fresh (Or.inr ⟨slot', inside, named⟩)
  · rw [slots_insertSlot arranged found slot] at slots
    rw [plain_insertSlot arranged found slot] at member
    rcases List.mem_append.1 slots with old | new
    · exact arranged.apart other inst' member slot' old
    · rw [List.mem_singleton.1 new]
      exact fun named => fresh (Or.inl ⟨other, inst', member, named⟩)

end Function

end TreeLowering.Ir

namespace TreeLowering.Lowering

open TreeLowering.Ir TreeLowering.Tree

namespace Builder

/-- The function being built. -/
def body (builder : Builder) : Function :=
  (builder.current.bind builder.target.function?).getD default

/-- The block the cursor is in. -/
def here? (builder : Builder) : Option BlockId := builder.cursor.map Cursor.block

def Has (builder : Builder) (id : BlockId) : Prop := (builder.body.block? id).isSome = true

def Open (builder : Builder) (id : BlockId) : Prop :=
  builder.Has id ∧ builder.body.exit? id = none

/-- The function being built is arranged, and new names can be told from those in use. -/
structure Fit (builder : Builder) : Prop where
  current : ∃ func, builder.current = some func ∧
    builder.target.function? func = some builder.body
  cursor : ∀ cursor, builder.cursor = some cursor →
    builder.current = some cursor.func ∧ builder.Open cursor.block
  started : builder.body.blocks.isEmpty = false
  arranged : builder.body.Arranged
  count : builder.slotCount = builder.body.slots.length
  temps : ∀ number, builder.body.Sets (.temp number) → number < builder.nextTemp
  names : ∀ text, builder.body.Sets (.named text) → text ∈ builder.usedNames

/-- What the lowering of a construct does to the function: it adds to the block at the cursor and to
new blocks. -/
structure Leads (now later : Builder) : Prop where
  current : later.current = now.current
  grown : now.body.Extends later.body
  others : ∀ id, now.Has id → now.here? ≠ some id →
    later.body.plain id = now.body.plain id ∧ later.body.exit? id = now.body.exit? id
  here : ∀ id, later.here? = some id → now.here? = some id ∨ ¬ now.Has id

variable {base now later : Builder} {func : FuncId} {id : BlockId}

namespace Leads

theorem refl (now : Builder) : Leads now now :=
  ⟨rfl, .refl _, fun _ _ _ => ⟨rfl, rfl⟩, fun _ => Or.inl⟩

theorem has (leads : Leads now later) (found : now.Has id) : later.Has id :=
  leads.grown.blocks id found

theorem trans (first : Leads base now) (second : Leads now later) : Leads base later := by
  refine ⟨second.current.trans first.current, first.grown.trans second.grown,
    fun id found elsewhere => ?_, fun id positioned => ?_⟩
  · obtain ⟨plain, exit⟩ := first.others id found elsewhere
    obtain ⟨plain', exit'⟩ := second.others id (first.has found) fun here => by
      rcases first.here id here with same | new
      · exact elsewhere same
      · exact new found
    exact ⟨plain'.trans plain, exit'.trans exit⟩
  · rcases second.here id positioned with same | new
    · exact first.here id same
    · exact Or.inr fun found => new (first.has found)

end Leads

end Builder

end TreeLowering.Lowering
