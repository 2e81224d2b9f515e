/-
This file proves where stack slots stand, however the builder is used. The entry block of a function
begins with the slots that were asked for while the builder was at the function, in the order in which
they were asked for, and no slot stands anywhere else. Instructions are added behind the slots, and
only loads are dropped, so that the number of slots the builder keeps is always the position of the
next one; a builder that comes back to a function counts its slots once more.
-/

import TreeLowering.Proofs.Builder.Names
import TreeLowering.Proofs.Flow.Program

namespace TreeLowering.Ir.Function

/-! ### Functions and their slots -/

/-- The slots of the function are the given ones, at the front of its entry block. -/
structure HasSlots (function : Function) (slots : List Instruction) : Prop where
  front : ∃ rest, function.code entryId = slots ++ rest ∧ ∀ inst ∈ rest, inst.op.isAlloca = false
  allocated : ∀ inst ∈ slots, inst.op.isAlloca = true
  inner : ∀ id, id ≠ entryId → ∀ inst ∈ function.code id, inst.op.isAlloca = false

variable {function : Function} {slots : List Instruction}

/-- Starting a function adds no instruction. -/
theorem code_start (function : Function) (id : BlockId) :
    function.withEntry.code id = function.code id := by
  cases bare : function.isDeclaration with
  | true =>
    rw [Lowering.code_withEntry bare, code, block?, Array.isEmpty_iff.1 bare]
    rfl
  | false =>
    rw [isDeclaration] at bare
    rw [withEntry, if_neg (by simp [bare])]

theorem entry_withEntry (function : Function) :
    ∃ block, function.withEntry.block? entryId = some block := by
  unfold withEntry
  split
  · exact ⟨_, rfl⟩
  · next started =>
    rw [Array.isEmpty_iff, ← Array.size_eq_zero_iff] at started
    exact ⟨_, Array.getElem?_eq_getElem (Nat.pos_of_ne_zero started)⟩

theorem code_grow (function : Function) (hint : String) (id : BlockId) :
    (function.addBlock hint).code id = function.code id := by
  rw [← function.code_start id]
  have grown : function.addBlock hint = function.withEntry.addBlock hint := by
    unfold addBlock nextBlock withEntry
    split <;> simp_all
  rw [grown, code_addBlock]
  unfold withEntry
  split <;> simp_all

/-- A function without instructions has no results, and the other way round. -/
theorem code_of_results (bare : function.results = []) (id : BlockId) : function.code id = [] := by
  rw [code]
  cases found : function.block? id with
  | none => rfl
  | some block =>
    have member : block ∈ function.blocks.toList :=
      Array.mem_toList_iff.2 (Array.mem_of_getElem? found)
    exact List.flatMap_eq_nil_iff.1 (List.map_eq_nil_iff.1 bare) block member

namespace HasSlots

theorem of_bare (bare : ∀ id, function.code id = []) : function.HasSlots [] := by
  refine ⟨⟨[], bare entryId, List.forall_mem_nil _⟩, List.forall_mem_nil _, fun id _ inst member => ?_⟩
  rw [bare id] at member
  cases member

theorem of_code {second : Function} (has : function.HasSlots slots)
    (same : ∀ id, second.code id = function.code id) : second.HasSlots slots := by
  refine ⟨?_, has.allocated, fun id inner => ?_⟩
  · rw [same]
    exact has.front
  · rw [same]
    exact has.inner id inner

/-- The slots are as many as the entry block begins with. -/
theorem leadingSlots (has : function.HasSlots slots) :
    Lowering.Builder.leadingSlots function = slots.length := by
  obtain ⟨rest, front, plain⟩ := has.front
  have counted : Lowering.Builder.leadingSlots function =
      ((function.code entryId).takeWhile fun inst => inst.op.isAlloca).length := by
    unfold Lowering.Builder.leadingSlots code
    cases function.block? entryId <;> rfl
  have none : rest.takeWhile (fun inst => inst.op.isAlloca) = [] := by
    cases rest with
    | nil => rfl
    | cons first later =>
      rw [List.takeWhile_cons_of_neg (by simp [plain first List.mem_cons_self])]
  rw [counted, front, List.takeWhile_append_of_pos has.allocated, none, List.append_nil]

/-- An instruction behind all others of its block leaves the slots alone. -/
theorem append (has : function.HasSlots slots) (id : BlockId) {inst : Instruction}
    (plain : inst.op.isAlloca = false) :
    (function.modifyBlock id fun found => found.append inst).HasSlots slots := by
  cases found : function.block? id with
  | none =>
    refine has.of_code fun other => ?_
    rw [code_modifyBlock]
    split_ifs with same
    · rw [code, same, found]
    · rfl
  | some block =>
    obtain ⟨rest, front, behind⟩ := has.front
    refine ⟨?_, has.allocated, fun other inner later member => ?_⟩
    · rw [code_append found]
      split_ifs with same
      · refine ⟨rest ++ [inst], by rw [← same, front, List.append_assoc], fun later member => ?_⟩
        rcases List.mem_append.1 member with member | member
        · exact behind later member
        · exact List.eq_of_mem_singleton member ▸ plain
      · exact ⟨rest, front, behind⟩
    · rw [code_append found] at member
      split_ifs at member with same
      · rcases List.mem_append.1 member with member | member
        · exact has.inner id (same ▸ inner) later member
        · exact List.eq_of_mem_singleton member ▸ plain
      · exact has.inner other inner later member

/-- A new slot behind the others. -/
theorem insert (has : function.HasSlots slots) {block : Block}
    (found : function.block? entryId = some block) {slot : Instruction}
    (allocates : slot.op.isAlloca = true) :
    (function.modifyBlock entryId fun found => found.insert slots.length slot).HasSlots
      (slots ++ [slot]) := by
  obtain ⟨rest, front, behind⟩ := has.front
  refine ⟨⟨rest, ?_, behind⟩, fun inst member => ?_, fun id inner inst member => ?_⟩
  · rw [code_insert found, if_pos rfl, front, List.take_left, List.drop_left, List.append_assoc]
    rfl
  · rcases List.mem_append.1 member with member | member
    · exact has.allocated inst member
    · exact List.eq_of_mem_singleton member ▸ allocates
  · rw [code_insert found, if_neg inner] at member
    exact has.inner id inner inst member

/-- Dropping an instruction that is no slot leaves the slots alone. -/
theorem remove (has : function.HasSlots slots) {id : BlockId} {block : Block} {position : Nat}
    {inst : Instruction} (found : function.block? id = some block)
    (there : (function.code id)[position]? = some inst) (plain : inst.op.isAlloca = false) :
    (function.modifyBlock id fun found => found.remove position).HasSlots slots := by
  obtain ⟨rest, front, behind⟩ := has.front
  refine ⟨?_, has.allocated, fun other inner later member => ?_⟩
  · rw [code_remove found]
    split_ifs with same
    · rw [← same, front] at there ⊢
      have after : slots.length ≤ position := by
        by_contra within
        rw [List.getElem?_append_left (Nat.lt_of_not_le within)] at there
        rw [has.allocated inst (List.mem_of_getElem? there)] at plain
        cases plain
      refine ⟨rest.eraseIdx (position - slots.length), ?_, fun later member => ?_⟩
      · exact List.eraseIdx_append_of_length_le after _
      · exact behind later (List.mem_of_mem_eraseIdx member)
    · exact ⟨rest, front, behind⟩
  · rw [code_remove found] at member
    split_ifs at member with same
    · exact has.inner id (same ▸ inner) later (List.mem_of_mem_eraseIdx member)
    · exact has.inner other inner later member

end HasSlots

end TreeLowering.Ir.Function

namespace TreeLowering.Lowering

open TreeLowering.Ir

/-! ### Steps that make no slot -/

namespace Build

variable {α β : Type}

/-- However the step ends, it has counted no slot. -/
def Slotless (action : BuildM α) : Prop :=
  ∀ builder, Ends action builder (fun _ after => after.slotCount = builder.slotCount)
    fun _ after => after.slotCount = builder.slotCount

theorem Slotless.bind {action : BuildM α} {next : α → BuildM β} (first : Slotless action)
    (rest : ∀ result, Slotless (next result)) : Slotless (action >>= next) := by
  intro builder
  rw [ends_bind]
  refine (first builder).mono (fun result middle same => ?_) fun _ _ => id
  exact (rest result middle).mono (fun _ _ later => later.trans same) fun _ _ later =>
    later.trans same

theorem Slotless.pure (result : α) : Slotless (pure result : BuildM α) := fun _ => rfl

theorem Slotless.get : Slotless (get : BuildM Builder) := fun _ => rfl

theorem Slotless.discard {action : BuildM α} (slotless : Slotless action) :
    Slotless (discard action) := fun builder => (slotless builder).discard

theorem Slotless.modify {change : Builder → Builder}
    (same : ∀ builder : Builder, (change builder).slotCount = builder.slotCount) :
    Slotless (modify change) := fun builder => same builder

theorem slotless_change (step : Module → Module) : Slotless (change step) := fun _ => rfl

theorem slotless_ask (question : Module → Except Ir.Error α) : Slotless (ask question) :=
  fun builder => (ends_ask question builder).mono (fun _ _ same => same.2 ▸ rfl)
    fun _ _ same => same ▸ rfl

theorem slotless_insertionPoint : Slotless insertionPoint := fun builder =>
  (ends_insertionPoint builder).mono (fun _ _ same => same.2 ▸ rfl) fun _ _ same => same ▸ rfl

theorem slotless_currentFunction : Slotless currentFunction := fun builder =>
  (ends_currentFunction builder).mono (fun _ _ same => same.2 ▸ rfl) fun _ _ same => same ▸ rfl

theorem slotless_measure (question : Builder → Except Trap α) : Slotless (measure question) :=
  fun builder => (ends_measure question builder).mono (fun _ _ same => same.2 ▸ rfl)
    fun _ _ same => same ▸ rfl

theorem slotless_declare (declaration : Module → EStateM.Result Ir.Error Module α) :
    Slotless (declare declaration) := by
  intro builder
  unfold Ends declare
  dsimp only
  cases declaration builder.target <;> rfl

theorem slotless_newBlock (hint : String) : Slotless (newBlock hint) :=
  slotless_currentFunction.bind fun _ => (slotless_ask _).bind fun _ => (slotless_ask _).bind fun _ =>
    (slotless_change _).bind fun _ => .pure _

theorem slotless_freshName : Slotless freshName := fun _ => rfl

theorem slotless_uniqueName (base : String) : Slotless (uniqueName base) := fun _ => rfl

theorem slotless_pin (value : Value) : Slotless (pin value) := by
  unfold pin
  cases value.regName? with
  | none => exact .pure ()
  | some name => exact .modify fun _ => rfl

theorem slotless_emitTemp (op : Operation) (ty : Ty) : Slotless (emitTemp op ty) :=
  slotless_freshName.bind fun _ => slotless_insertionPoint.bind fun _ => (slotless_ask _).bind fun _ =>
    (slotless_change _).bind fun _ => .pure _

theorem slotless_terminate (terminator : Terminator) : Slotless (terminate terminator) :=
  slotless_insertionPoint.bind fun _ => ((slotless_ask _).bind fun _ => slotless_change _).bind
    fun _ => .modify fun _ => rfl

theorem slotless_copyAggregate (destination origin : Value) (ty : Ty) :
    Slotless (copyAggregate destination origin ty) := by
  have routine : Slotless copyRoutine := Slotless.get.bind fun _ =>
    (slotless_declare _).bind fun _ => slotless_ask _
  refine (slotless_measure _).bind fun _ => routine.bind fun _ => ?_
  refine (slotless_emitTemp _ _).bind fun _ => (slotless_emitTemp _ _).bind fun _ => ?_
  exact (slotless_emitTemp _ _).bind fun _ => .pure _

theorem slotless_store (address value : Value) : Slotless (store address value) := by
  refine (slotless_measure _).bind fun source => ?_
  split
  · refine Slotless.bind ((slotless_ask _).bind fun _ => ?_) fun _ => slotless_copyAggregate _ _ _
    exact (slotless_change _).bind fun _ => .pure _
  · exact (slotless_emitTemp _ _).bind fun _ => .pure _

end Build

namespace Builder

/-! ### Requests -/

/-- The slot that a command asks for: the type it holds and the variable it is made for. -/
def Command.request? : Command → Option (Ty × Option String)
  | .alloca ty variableName => some (ty, variableName)
  | .emit (.alloca ty) _ => some (ty, none)
  | _ => none

theorem Command.step_of_request {command : Command} {ty : Ty} {variableName : Option String}
    (asks : command.request? = some (ty, variableName)) :
    command.step = discard (Build.alloca ty variableName) := by
  cases command with
  | alloca allocated name =>
    cases asks
    rfl
  | emit op _ =>
    cases op with
    | alloca allocated =>
      cases asks
      rfl
    | _ => cases asks
  | _ => cases asks

/-- The name of the next slot: the variable's first free one, or the next temporary. -/
def nextSlotName (builder : Builder) : Option String → ValueName
  | some variableName =>
    .named (candidate (variableName ++ ".addr") (builder.freeNumber (variableName ++ ".addr")))
  | none => .temp builder.nextTemp

/-- The slots that a command asks for in a function: one, if it asks for a slot while the builder is
at the function. -/
def asked (builder : Builder) (func : FuncId) (command : Command) : List Instruction :=
  match command.request? with
  | some (ty, variableName) =>
    if builder.current = some func then
      [⟨builder.nextSlotName variableName, .ptr ty true, .alloca ty⟩]
    else []
  | none => []

/-- The slots that several commands ask for in a function, in their order. -/
def askedBy (func : FuncId) : (builder : Builder) → List Command → List Instruction
  | _, [] => []
  | builder, command :: rest =>
    builder.asked func command ++ askedBy func (builder.obey command) rest

/-! ### What a command does to the slots -/

variable {before after : Builder} {slots : FuncId → List Instruction}

/-- Every function has the slots that are listed for it, and the builder counts those of its own. -/
structure Prologue (slots : FuncId → List Instruction) (builder : Builder) : Prop where
  fronted : ∀ func function, builder.target.function? func = some function →
    function.HasSlots (slots func)
  missing : ∀ func, builder.target.function? func = none → slots func = []
  counted : ∀ func, builder.current = some func → builder.slotCount = (slots func).length

theorem Edit.slotCount_le (edit : before.Edit after) : before.slotCount ≤ after.slotCount := by
  cases edit with
  | name named => exact Nat.le_of_eq named.slots.symm
  | slot current named => exact named.slots ▸ Nat.le_succ _
  | _ => exact Nat.le_refl _

theorem slotCount_le_of_edits (edits : before.Edits after) :
    before.slotCount ≤ after.slotCount := by
  induction edits with
  | refl => exact Nat.le_refl _
  | tail _ edit inductionHypothesis => exact Nat.le_trans inductionHypothesis edit.slotCount_le

/-- A command that asks for no slot counts none, unless it goes to another place. -/
theorem obey_slotless (builder : Builder) {command : Command} (plain : command.request? = none) :
    (builder.obey command).slotCount = builder.slotCount ∨ ∃ func block,
      (builder.target.modifyFunction func Function.withEntry).checkOpen func block = .ok () ∧
        builder.obey command = builder.move func block := by
  have counts (slotless : Build.Slotless command.step) :
      (builder.obey command).slotCount = builder.slotCount := obey_ends (slotless builder)
  cases command with
  | positionAt func block =>
    rcases builder.obey_positionAt func block with moved | same | entered
    · exact .inr ⟨func, block, moved⟩
    · exact .inl (by rw [same])
    · exact .inl (by rw [entered])
  | newBlock hint => exact .inl (counts (Build.slotless_newBlock hint).discard)
  | freshName => exact .inl (counts Build.slotless_freshName.discard)
  | uniqueName base => exact .inl (counts (Build.slotless_uniqueName base).discard)
  | pin value => exact .inl (counts (Build.slotless_pin value))
  | emit op ty =>
    refine .inl (counts (Build.Slotless.discard ?_))
    cases op with
    | alloca allocated => cases plain
    | store address value => exact (Build.slotless_store address value).bind fun _ => .pure _
    | _ => exact Build.slotless_emitTemp _ ty
  | alloca ty variableName => cases plain
  | store address value => exact .inl (counts (Build.slotless_store address value))
  | jump target => exact .inl (counts (Build.slotless_terminate _))
  | branch test thenBlock elseBlock => exact .inl (counts (Build.slotless_terminate _))
  | ret value => exact .inl (counts (Build.slotless_terminate _))
  | _ => exact .inl (counts (Build.slotless_emitTemp _ _).discard)

namespace Prologue

/-- The law survives a change of one function that keeps the function's slots. -/
theorem modify {here : FuncId} (prologue : before.Prologue slots) (change : Function → Function)
    (modified : after.target.functions = before.target.functions.modify here.index change)
    (current : after.current = before.current) (count : after.slotCount = before.slotCount)
    (keeps : ∀ old, before.target.function? here = some old → old.HasSlots (slots here) →
      (change old).HasSlots (slots here)) : after.Prologue slots := by
  refine ⟨fun func function found => ?_, fun func absent => ?_, fun func same => ?_⟩
  · rw [Module.function?_modify modified] at found
    split_ifs at found with same
    · subst same
      obtain ⟨old, stored, rfl⟩ := Option.map_eq_some_iff.1 found
      exact keeps old stored (prologue.fronted func old stored)
    · exact prologue.fronted func function found
  · rw [Module.function?_modify modified] at absent
    split_ifs at absent
    · exact prologue.missing func (Option.map_eq_none_iff.1 absent)
    · exact prologue.missing func absent
  · rw [count]
    exact prologue.counted func (current ▸ same)

/-- The law survives an edit that counts no slot. -/
theorem edit (prologue : before.Prologue slots) (edit : before.Edit after)
    (slotless : after.slotCount = before.slotCount) : after.Prologue slots := by
  cases edit with
  | entry here =>
    exact prologue.modify Function.withEntry rfl rfl rfl fun old _ has => has.of_code old.code_start
  | block here hint =>
    exact prologue.modify (fun function => function.addBlock hint) rfl rfl rfl fun old _ has =>
      has.of_code (old.code_grow hint)
  | declare declared =>
    have declares := (Module.declareFunction_spec declared).1
    refine ⟨fun func function found => ?_, fun func absent => ?_, prologue.counted⟩
    · cases stored : before.target.function? func with
      | none =>
        rw [prologue.missing func stored]
        have bare := Function.results_of_declaration (declares.added func function stored found)
        exact .of_bare fun id => Function.code_of_results bare id
      | some old =>
        cases (declares.kept func old stored).symm.trans found
        exact prologue.fronted func _ stored
    · cases stored : before.target.function? func with
      | none => exact prologue.missing func stored
      | some old => cases absent.symm.trans (declares.kept func old stored)
  | spend => exact ⟨prologue.fronted, prologue.missing, prologue.counted⟩
  | pin pinned => exact ⟨prologue.fronted, prologue.missing, prologue.counted⟩
  | name named =>
    exact ⟨named.target ▸ prologue.fronted, named.target ▸ prologue.missing,
      named.slots ▸ named.current ▸ prologue.counted⟩
  | append here plain =>
    exact prologue.modify (fun function => function.modifyBlock _ _) rfl rfl rfl fun old _ has =>
      has.append _ plain
  | slot current named =>
    have more : _ + 1 = _ := slotless
    rw [named.slots] at more
    exact absurd more (Nat.succ_ne_self _)
  | @drop value cursor position origin source =>
    obtain ⟨name, ty, function, block, _, _, _, _, stored, found, loaded⟩ := copySource?_spec source
    refine prologue.modify (fun function => function.modifyBlock cursor.block fun found =>
      found.remove position) rfl rfl rfl fun old stored' has => ?_
    cases stored.symm.trans stored'
    obtain ⟨later, ty, earlier, split, length, _⟩ := findLoad?_spec loaded
    have layout : function.code cursor.block =
        earlier.reverse ++ ⟨name, ty, .load origin⟩ :: later.reverse := by
      rw [Function.code_of_block? found, ← List.reverse_reverse block.insts.toList, split]
      simp
    have there : (function.code cursor.block)[position]? = some ⟨name, ty, .load origin⟩ := by
      rw [layout, ← length, ← List.length_reverse, List.getElem?_append_right (Nat.le_refl _),
        Nat.sub_self]
      rfl
    exact has.remove found there rfl
  | close terminator here =>
    exact prologue.modify (fun function => function.modifyBlock _ _) rfl rfl rfl fun old _ has =>
      has.of_code fun other => old.code_terminate _ other terminator

theorem edits (prologue : before.Prologue slots) (edits : before.Edits after)
    (slotless : after.slotCount = before.slotCount) : after.Prologue slots := by
  induction edits with
  | refl => exact prologue
  | tail earlier edit inductionHypothesis =>
    have first := slotCount_le_of_edits earlier
    have last := edit.slotCount_le
    have before := Nat.le_antisymm (slotless ▸ last) first
    exact (inductionHypothesis before).edit edit (slotless.trans before.symm)

/-- The law survives a move: the builder counts the slots of the function it comes to. -/
theorem move {builder : Builder} {here : FuncId} {block : BlockId}
    (prologue : builder.Prologue slots) (opened : (builder.target.modifyFunction here
      Function.withEntry).checkOpen here block = .ok ()) :
    (builder.move here block).Prologue slots := by
  have entered : Prologue slots { builder with
      target := builder.target.modifyFunction here Function.withEntry } :=
    prologue.edit (.entry here) rfl
  obtain ⟨function, _, found, _⟩ := Module.checkOpen_ok opened
  rw [← target_move builder here block] at found
  refine ⟨?_, ?_, fun func same => ?_⟩
  · rw [target_move]
    exact entered.fronted
  · rw [target_move]
    exact entered.missing
  · cases (move_cases opened).2.1.symm.trans same
    rw [target_move] at found
    unfold Builder.move enter
    by_cases stayed : builder.current = some here
    · rw [if_pos stayed]
      exact prologue.counted here stayed
    · rw [if_neg stayed, found]
      exact (entered.fronted here function found).leadingSlots

/-- What asking for a slot does, once its name is handed out. -/
theorem run_alloca {func : FuncId} {function : Function} {name : ValueName} {start : Builder} {ty : Ty}
    {variableName : Option String} (current : before.current = some func)
    (handed : Build.slotName variableName before = .ok name start)
    (stored : start.target.function? func = some function) :
    Build.alloca ty variableName before = .ok (.reg name (.ptr ty true)) { start with
      slotCount := start.slotCount + 1
      target := (start.target.modifyFunction func Function.withEntry).modifyBlock func
        Function.entryId fun found => found.insert start.slotCount ⟨name, .ptr ty true, .alloca ty⟩ } := by
  let entered : Builder :=
    { start with target := start.target.modifyFunction func Function.withEntry }
  obtain ⟨block, first⟩ := function.entry_withEntry
  have found : entered.target.function? func = some function.withEntry := by
    rw [Module.function?_modifyFunction, if_pos rfl, stored]
    rfl
  have here : Build.currentFunction before = .ok func before := by
    have read : (get : BuildM Builder) before = .ok before before := rfl
    rw [Build.currentFunction, run_bind read, current]
    rfl
  have known : Build.ask (fun target => target.getFunction func) start = .ok function start := by
    rw [Build.ask, Module.getFunction_of_found stored]
  have enters : Build.ensureEntry func start = .ok Function.entryId entered := by
    rw [Build.ensureEntry, run_bind known]
    rfl
  have got : entered.target.getBlock func Function.entryId = .ok block := by
    unfold Module.getBlock
    rw [Module.getFunction_of_found found]
    change function.withEntry.getBlock Function.entryId = .ok block
    rw [Function.getBlock, first]
  have opened : Build.ask (fun target => target.getBlock func Function.entryId) entered =
      .ok block entered := by
    rw [Build.ask, got]
  have read : (get : BuildM Builder) entered = .ok entered entered := rfl
  rw [Build.alloca, run_bind here, run_bind handed, run_bind enters, run_bind read, Build.insertAt,
    bind_assoc, run_bind opened]
  rfl

/-- A slot that is asked for is made, behind those made before it. -/
theorem alloca {func : FuncId} (prologue : before.Prologue slots) (orderly : before.Orderly)
    (current : before.current = some func) (ty : Ty) (variableName : Option String) :
    ∃ after, Build.alloca ty variableName before =
        .ok (.reg (before.nextSlotName variableName) (.ptr ty true)) after ∧
      after.Prologue fun other => slots other ++
        if func = other then [⟨before.nextSlotName variableName, .ptr ty true, .alloca ty⟩]
        else [] := by
  obtain ⟨start, handed⟩ : ∃ start,
      Build.slotName variableName before = .ok (before.nextSlotName variableName) start := by
    cases variableName <;> exact ⟨_, rfl⟩
  have named := Build.returns_slotName variableName _ _ handed
  obtain ⟨function, stored⟩ := Option.isSome_iff_exists.1 (orderly.stands func current)
  obtain ⟨block, first⟩ := function.entry_withEntry
  have found : (start.target.modifyFunction func Function.withEntry).function? func =
      some function.withEntry := by
    rw [Module.function?_modifyFunction, if_pos rfl, named.target, stored]
    rfl
  have made := @run_alloca before func function _ start ty variableName current handed
    (named.target ▸ stored)
  have counted : start.slotCount = (slots func).length :=
    named.slots.trans (prologue.counted func current)
  have elsewhere : ∀ other, other ≠ func →
      (start.target.modifyFunction func Function.withEntry).function? other =
        before.target.function? other := by
    intro other apart
    rw [Module.function?_modifyFunction, if_neg apart, named.target]
  refine ⟨_, made, fun other function' found' => ?_, fun other absent => ?_, fun other same => ?_⟩
  · rw [Module.modifyBlock, Module.function?_modifyFunction] at found'
    split_ifs at found' with same
    · subst same
      rw [found] at found'
      cases found'
      rw [if_pos rfl, counted]
      have has := (prologue.fronted other function stored).of_code function.code_start
      exact has.insert first rfl
    · rw [if_neg fun equal => same equal.symm, List.append_nil]
      exact prologue.fronted other function' (elsewhere other same ▸ found')
  · rw [Module.modifyBlock, Module.function?_modifyFunction] at absent
    split_ifs at absent with same
    · rw [same, found] at absent
      cases absent
    · rw [if_neg fun equal => same equal.symm, List.append_nil]
      exact prologue.missing other (elsewhere other same ▸ absent)
  · cases (named.current.trans current).symm.trans same
    rw [if_pos rfl, List.length_append]
    exact congrArg (· + 1) counted

/-- What a command asks for is added to the slots there are. -/
theorem obey {builder : Builder} (prologue : builder.Prologue slots) (orderly : builder.Orderly)
    (command : Command) :
    (builder.obey command).Prologue fun func => slots func ++ builder.asked func command := by
  cases asks : command.request? with
  | none =>
    have same : (fun func => slots func ++ builder.asked func command) = slots := by
      funext func
      rw [asked, asks, List.append_nil]
    rw [same]
    rcases builder.obey_slotless asks with slotless | ⟨func, block, opened, moved⟩
    · rcases builder.obey_cases command with edits | ⟨func, block, _, opened, moved⟩
      · exact prologue.edits edits slotless
      · exact moved ▸ prologue.move opened
    · exact moved ▸ prologue.move opened
  | some request =>
    obtain ⟨ty, variableName⟩ := request
    unfold asked
    rw [asks]
    dsimp only
    cases current : builder.current with
    | none =>
      have stopped : builder.obey command = builder := by
        have failed : Build.alloca ty variableName builder = .error .noInsertionPoint builder := by
          refine run_bind_error ?_
          have read : (get : BuildM Builder) builder = .ok builder builder := rfl
          rw [Build.currentFunction, run_bind read, current]
          rfl
        refine @obey_ends builder command (fun after => after = builder) ?_
        rw [Command.step_of_request asks]
        refine Ends.discard ?_
        rw [Ends, failed]
      simp only [stopped, reduceCtorEq, if_false, List.append_nil]
      exact prologue
    | some func =>
      obtain ⟨after, made, prologue⟩ := prologue.alloca orderly current ty variableName
      have ended : builder.obey command = after := by
        refine @obey_ends builder command (fun done => done = after) ?_
        rw [Command.step_of_request asks]
        refine Ends.discard ?_
        rw [Ends, made]
      simp only [ended, Option.some.injEq]
      exact prologue

/-- The law holds throughout a run. -/
theorem run {builder : Builder} (prologue : builder.Prologue slots) (orderly : builder.Orderly)
    (commands : List Command) :
    (builder.run commands).Prologue fun func => slots func ++ askedBy func builder commands := by
  induction commands generalizing builder slots with
  | nil =>
    simp only [askedBy, List.append_nil]
    exact prologue
  | cons command rest inductionHypothesis =>
    have later := inductionHypothesis (prologue.obey orderly command) (orderly.obey command)
    simp only [List.append_assoc] at later
    exact later

end Prologue

/-- However the builder is used, the entry block of a function begins with the slots that were asked
for, in their order, and there are no other slots. -/
theorem slots_of_run {target : Module} (options : Options)
    (unused : ∀ function ∈ target.functions, function.results = [])
    (commands : List Command) {func : FuncId} {function : Function}
    (found : ((startOn target options).run commands).target.function? func = some function) :
    (∃ rest, function.code Function.entryId = askedBy func (startOn target options) commands ++ rest ∧
      ∀ inst ∈ rest, inst.op.isAlloca = false) ∧
      ∀ id, id ≠ Function.entryId → ∀ inst ∈ function.code id, inst.op.isAlloca = false := by
  have start : (startOn target options).Prologue fun _ => [] := by
    refine ⟨fun func function found => ?_, fun _ _ => rfl, nofun⟩
    exact .of_bare (Function.code_of_results (unused function (Array.mem_of_getElem? found)))
  have has := (start.run (Orderly.start options unused) commands).fronted func function found
  exact ⟨has.front, has.inner⟩

/-- Asks for slots in `f` before and after its entry block is closed, goes to `g`, and comes back. -/
def backAndForth : List Command :=
  [.positionAt ⟨0⟩ Function.entryId, .alloca .i32 (some "x"), .unary .not (.param "x" .i32),
    .newBlock "next", .jump ⟨1⟩, .emit (.alloca .u8) .unit, .positionAt ⟨1⟩ Function.entryId,
    .alloca .bool none, .positionAt ⟨0⟩ ⟨1⟩, .unary .neg (.param "x" .i32), .alloca .usize none]

theorem backAndForth_slots : ∃ function,
    ((startOn pairOfFunctions .standard).run backAndForth).target.function? ⟨0⟩ = some function ∧
      (∀ function ∈ pairOfFunctions.functions, function.results = []) ∧
      askedBy ⟨0⟩ (startOn pairOfFunctions .standard) backAndForth =
        [⟨.named "x.addr", .ptr .i32 true, .alloca .i32⟩, ⟨.temp 1, .ptr .u8 true, .alloca .u8⟩,
          ⟨.temp 1, .ptr .usize true, .alloca .usize⟩] ∧
      (∃ rest, function.code Function.entryId =
          askedBy ⟨0⟩ (startOn pairOfFunctions .standard) backAndForth ++ rest ∧
        ∀ inst ∈ rest, inst.op.isAlloca = false) ∧
      ∀ id, id ≠ Function.entryId → ∀ inst ∈ function.code id, inst.op.isAlloca = false := by
  have stands : (((startOn pairOfFunctions .standard).run backAndForth).target.function?
      ⟨0⟩).isSome = true := by cbv
  obtain ⟨function, found⟩ := Option.isSome_iff_exists.1 stands
  have slots := slots_of_run .standard pairOfFunctions_unused backAndForth found
  exact ⟨function, found, pairOfFunctions_unused, by cbv, slots.1, slots.2⟩

end Builder

end TreeLowering.Lowering
