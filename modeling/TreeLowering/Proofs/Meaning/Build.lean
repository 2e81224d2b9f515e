/-
This file proves what the steps of the builder do to the code of a function. Each lemma says what a
step adds and that it leads from one fit state to the next, so that later proofs need not look at
how functions are changed.
-/

import TreeLowering.Proofs.Meaning.Growth

namespace TreeLowering.Lowering

open TreeLowering.Ir TreeLowering.Tree

namespace Builder

variable {base now later : Builder} {func : FuncId} {id other : BlockId}

/-- Whether a block is open although the cursor is elsewhere. -/
structure Waits (now : Builder) (id : BlockId) : Prop where
  opened : now.Open id
  elsewhere : now.here? ≠ some id

/-- Lowering a construct leaves the blocks that wait alone. -/
theorem Waits.still (waits : now.Waits id) (leads : Leads now later) : later.Waits id := by
  obtain ⟨_, exit⟩ := leads.others id waits.opened.1 waits.elsewhere
  refine ⟨⟨leads.has waits.opened.1, exit.trans waits.opened.2⟩, fun here => ?_⟩
  rcases leads.here id here with same | new
  · exact waits.elsewhere same
  · exact new waits.opened.1

theorem Waits.plain (waits : now.Waits id) (leads : Leads now later) :
    later.body.plain id = now.body.plain id :=
  (leads.others id waits.opened.1 waits.elsewhere).1

theorem Fit.opened (fit : now.Fit) (here : now.here? = some id) : now.Open id := by
  obtain ⟨cursor, positioned, rfl⟩ := Option.map_eq_some_iff.1 here
  exact (fit.cursor cursor positioned).2

theorem Fit.found (fit : now.Fit) (current : now.current = some func) :
    now.target.function? func = some now.body := by
  obtain ⟨func', current', found⟩ := fit.current
  cases current.symm.trans current'
  exact found

theorem Fit.checkOpen (fit : now.Fit) (current : now.current = some func) (opened : now.Open id) :
    now.target.checkOpen func id = .ok () :=
  Module.checkOpen_of_found (fit.found current) opened.1 opened.2

theorem body_of_found {function : Function} (current : now.current = some func)
    (found : now.target.function? func = some function) : now.body = function := by
  rw [body, current, Option.bind_some, found, Option.getD_some]

/-- The function being built after a change. -/
theorem Fit.changed (fit : now.Fit) (later : Builder) (change : Function → Function)
    (current : now.current = some func) (same : later.current = now.current)
    (modified : later.target.functions = now.target.functions.modify func.index change) :
    later.target.function? func = some (change now.body) ∧ later.body = change now.body := by
  have found : later.target.function? func = some (change now.body) :=
    (Module.function?_modify modified func).trans <| by
      rw [if_pos rfl, fit.found current, Option.map_some]
  exact ⟨found, body_of_found (same.trans current) found⟩

theorem started_modifyBlock {function : Function} {change : Block → Block}
    (started : function.blocks.isEmpty = false) :
    (function.modifyBlock id change).blocks.isEmpty = false := by
  simpa [Function.modifyBlock, Array.isEmpty, Array.size_modify] using started

/-- Only the instructions of one block were changed. -/
structure Reworked (now later : Builder) (func : FuncId) (id : BlockId) (change : Block → Block) :
    Prop where
  current : ∃ func, later.current = some func ∧ later.target.function? func = some later.body
  body : later.body = now.body.modifyBlock id change
  started : later.body.blocks.isEmpty = false
  exit : ∀ other, later.body.exit? other = now.body.exit? other
  has : ∀ other, later.Has other ↔ now.Has other

theorem Fit.reworked {change : Block → Block} (fit : now.Fit) (later : Builder)
    (current : now.current = some func) (same : later.current = now.current)
    (target : later.target = now.target.modifyBlock func id change)
    (kept : ∀ block, (change block).terminator = block.terminator) :
    Reworked now later func id change := by
  obtain ⟨found, body⟩ :=
    fit.changed later (fun function => function.modifyBlock id change) current same
      (congrArg (fun target : Module => target.functions) target)
  refine ⟨⟨func, same.trans current, body ▸ found⟩, body, ?_, fun other => ?_, fun other => ?_⟩
  · rw [body]
    exact started_modifyBlock fit.started
  · rw [body]
    exact Function.exit?_modifyBlock_of_same _ _ _ kept
  · rw [Has, body, Function.isSome_block?_modifyBlock, Has]

/-- Where the cursor can be, it still can. -/
theorem Reworked.cursor {change : Block → Block} {cursor : Cursor}
    (reworked : Reworked now later func id change) (fit : now.Fit)
    (same : later.current = now.current) (positioned : now.cursor = some cursor) :
    later.current = some cursor.func ∧ later.Open cursor.block := by
  obtain ⟨current, opened⟩ := fit.cursor cursor positioned
  exact ⟨same.trans current, (reworked.has _).2 opened.1, (reworked.exit _).trans opened.2⟩

theorem Fit.entry (fit : now.Fit) : now.Has Function.entryId := by
  have started := fit.started
  rw [Has, Function.block?, Function.entryId]
  simpa [Array.isEmpty, Nat.pos_iff_ne_zero] using started

/-! ### Emission -/

/-- An instruction was added at the cursor. -/
structure Emits (now later : Builder) (id : BlockId) (inst : Instruction) : Prop where
  fit : later.Fit
  leads : Leads now later
  here : later.here? = some id
  fresh : ¬ now.body.Sets inst.name
  plain : later.body.plain id = now.body.plain id ++ [inst]

theorem Emits.sets {inst : Instruction} (emits : Emits now later id inst) :
    later.body.Sets inst.name := by
  refine Or.inl ⟨id, inst, ?_, rfl⟩
  rw [emits.plain]
  simp

/-- Emitting an operation adds an instruction with a new name. -/
theorem Fit.emit {op : Operation} {ty : Ty} (fit : now.Fit) (here : now.here? = some id)
    (plain : op.isAlloca = false) :
    Ensures (Build.emitTemp op ty) now fun value later => ∃ name, value = .reg name ty ∧
      Emits now later id ⟨name, ty, op⟩ := by
  obtain ⟨cursor, positioned, rfl⟩ := Option.map_eq_some_iff.1 here
  obtain ⟨current, opened⟩ := fit.cursor cursor positioned
  obtain ⟨block, found⟩ := Option.isSome_iff_exists.1 opened.1
  have checked := fit.checkOpen current opened
  simp only [Build.emitTemp, Build.freshName, Build.append, Build.insertionPoint, Build.appendAt,
    ensures_bind, ensures_get, ensures_modify, ensures_pure, positioned]
  rw [ensures_ask checked, ensures_change]
  let inst : Instruction := ⟨.temp now.nextTemp, ty, op⟩
  let later : Builder := { now with
    cursor := some cursor
    nextTemp := now.nextTemp + 1
    target := now.target.modifyBlock cursor.func cursor.block fun found => found.append inst }
  have fresh : ¬ now.body.Sets inst.name := fun sets => Nat.lt_irrefl _ (fit.temps _ sets)
  have reworked := fit.reworked later current rfl rfl fun _ => rfl
  have body := reworked.body
  have code : ∀ other, later.body.plain other = if other = cursor.block
      then now.body.plain cursor.block ++ [inst] else now.body.plain other := by
    rw [body]
    exact fun other => Function.plain_append found plain
  have fit' : later.Fit := by
    refine ⟨reworked.current, fun cursor' same => reworked.cursor fit rfl (positioned.trans same),
      reworked.started, body ▸ fit.arranged.append found plain fresh, ?_, fun number sets => ?_,
      fun text sets => ?_⟩
    · rw [body, Function.slots_append found plain]
      exact fit.count
    · rcases Function.sets_append found plain (body ▸ sets) with old | new
      · exact Nat.lt_succ_of_lt (fit.temps number old)
      · cases new
        exact Nat.lt_succ_self _
    · rcases Function.sets_append found plain (body ▸ sets) with old | new
      · exact fit.names text old
      · cases new
  refine ⟨.temp now.nextTemp, rfl, fit', ⟨rfl, ?_, fun other old elsewhere => ⟨?_, reworked.exit other⟩,
    fun other same => Or.inl (here.trans same)⟩, rfl, fresh, ?_⟩
  · rw [body]
    exact .append found plain opened.2
  · rw [code, if_neg fun same => elsewhere (by rw [here, same])]
  · rw [code, if_pos rfl]

/-- A value that is no aggregate is stored by a store. -/
theorem Fit.store {address value : Value} (fit : now.Fit) (here : now.here? = some id)
    (scalar : value.ty.isAggregate = false) :
    Ensures (Build.store address value) now fun _ later => ∃ name,
      Emits now later id ⟨name, .unit, .store address value⟩ := by
  have plain : now.copySource? value = .ok none := by
    rw [copySource?, isLargeAggregate, scalar]
    rfl
  unfold Build.store
  rw [ensures_bind]
  refine ensures_measure fun found measured => ?_
  cases plain.symm.trans measured
  rw [ensures_bind]
  refine (fit.emit here rfl).mono fun _ later emitted => ?_
  obtain ⟨name, _, emits⟩ := emitted
  exact ⟨name, emits⟩

/-! ### Stack slots -/

/-- A stack slot was added. -/
structure Reserves (now later : Builder) (slot : Instruction) : Prop where
  fit : later.Fit
  leads : Leads now later
  here : later.here? = now.here?
  fresh : ¬ now.body.Sets slot.name
  plain : ∀ id, later.body.plain id = now.body.plain id
  slots : later.body.slots = now.body.slots ++ [slot]

/-- The builder after a name was handed out. -/
structure Names (now start : Builder) (name : ValueName) : Prop where
  same : start = { now with
    nextTemp := start.nextTemp, usedNames := start.usedNames, nextSuffix := start.nextSuffix }
  fresh : ¬ now.body.Sets name
  temps : ∀ number, number < now.nextTemp ∨ name = .temp number → number < start.nextTemp
  names : ∀ text, text ∈ now.usedNames ∨ name = .named text → text ∈ start.usedNames

theorem Fit.slotName (fit : now.Fit) (variableName : Option String) :
    Ensures (Build.slotName variableName) now fun name start => Names now start name := by
  cases variableName with
  | none =>
    simp only [Build.slotName, Build.freshName, ensures_bind, ensures_get, ensures_modify,
      ensures_pure]
    refine ⟨rfl, fun sets => Nat.lt_irrefl _ (fit.temps _ sets), ?_, ?_⟩
    · rintro number (less | same)
      · exact Nat.lt_succ_of_lt less
      · cases same
        exact Nat.lt_succ_self _
    · rintro text (used | same)
      · exact used
      · cases same
  | some text =>
    simp only [Build.slotName, Build.uniqueName, ensures_bind, ensures_get, ensures_modify,
      ensures_pure]
    refine ⟨rfl, fun sets => now.freeNumber_not_mem _ (fit.names _ sets), ?_, ?_⟩
    · rintro number (less | same)
      · exact less
      · cases same
    · rintro text (used | same)
      · exact List.mem_cons_of_mem _ used
      · cases same
        exact List.mem_cons_self

/-- Reserving a slot adds it behind the slots before it. -/
theorem Fit.reserve {ty : Ty} {variableName : Option String} (fit : now.Fit) :
    Ensures (Build.alloca ty variableName) now fun value later => ∃ name,
      value = .reg name (.ptr ty true) ∧ Reserves now later ⟨name, .ptr ty true, .alloca ty⟩ := by
  obtain ⟨func, current, found⟩ := fit.current
  obtain ⟨block, stored⟩ := Option.isSome_iff_exists.1 fit.entry
  unfold Build.alloca
  rw [ensures_bind, ensures_currentFunction current, ensures_bind]
  refine (fit.slotName variableName).mono fun name start named => ?_
  have target : start.target = now.target := by rw [named.same]
  have found' : start.target.function? func = some now.body := target ▸ found
  have got : start.target.getBlock func Function.entryId = .ok block := by
    unfold Module.getBlock
    rw [Module.getFunction_of_found found']
    change now.body.getBlock Function.entryId = _
    rw [Function.getBlock, stored]
  rw [ensures_bind, Moment.ensures_ensureEntry found' fit.started]
  simp only [Build.insertAt, ensures_bind, ensures_get]
  rw [ensures_ask got, ensures_change, ensures_pure, ensures_modify, ensures_pure]
  have count : start.slotCount = now.body.slots.length := by
    rw [named.same]
    exact fit.count
  let slot : Instruction := ⟨name, .ptr ty true, .alloca ty⟩
  let later : Builder := { start with
    target := start.target.modifyBlock func Function.entryId fun found =>
      found.insert start.slotCount slot
    slotCount := start.slotCount + 1 }
  have same : later.current = now.current ∧ later.cursor = now.cursor := by
    show start.current = now.current ∧ start.cursor = now.cursor
    rw [named.same]
    exact ⟨rfl, rfl⟩
  have here : later.here? = now.here? := by
    rw [here?, same.2, here?]
  have reworked : Reworked now later func Function.entryId fun found =>
      found.insert now.body.slots.length slot :=
    fit.reworked later current same.1 (by rw [← count, ← target]) fun _ => rfl
  have body := reworked.body
  have plain : ∀ other, later.body.plain other = now.body.plain other := by
    rw [body]
    exact fun other => Function.plain_insertSlot fit.arranged stored rfl
  have slots : later.body.slots = now.body.slots ++ [slot] := by
    rw [body]
    exact Function.slots_insertSlot fit.arranged stored rfl
  have fit' : later.Fit := by
    refine ⟨reworked.current,
      fun cursor positioned => reworked.cursor fit same.1 (same.2 ▸ positioned), reworked.started,
      body ▸ fit.arranged.insertSlot stored rfl named.fresh, ?_, fun number set => ?_,
      fun text set => ?_⟩
    · rw [slots, List.length_append, ← count]
      rfl
    · exact named.temps number
        ((Function.sets_insertSlot fit.arranged stored rfl (body ▸ set)).imp_left (fit.temps number))
    · exact named.names text
        ((Function.sets_insertSlot fit.arranged stored rfl (body ▸ set)).imp_left (fit.names text))
  refine ⟨name, rfl, fit', ⟨same.1, ?_, fun other _ _ => ⟨plain other, reworked.exit other⟩,
    fun other positioned => Or.inl (here ▸ positioned)⟩, here, named.fresh, plain, slots⟩
  rw [body]
  exact .insertSlot fit.arranged stored rfl

/-! ### Blocks -/

/-- A block was added, which waits for its code. -/
structure Opens (now later : Builder) (id : BlockId) : Prop where
  fit : later.Fit
  leads : Leads now later
  here : later.here? = now.here?
  new : ¬ now.Has id
  inner : id ≠ Function.entryId
  waits : later.Waits id
  bare : later.body.plain id = []
  plain : ∀ other, later.body.plain other = now.body.plain other

theorem Fit.newBlock (fit : now.Fit) (hint : String) :
    Ensures (Build.newBlock hint) now fun id later => Opens now later id := by
  obtain ⟨func, current, found⟩ := fit.current
  refine ensures_newBlock current (Module.getFunction_of_found found) ?_
  let later : Builder := { now with
    target := now.target.modifyFunction func fun function => function.addBlock hint }
  obtain ⟨stored, body⟩ := fit.changed later (fun function => function.addBlock hint) current rfl rfl
  have has : ∀ other, later.Has other ↔ now.Has other ∨ other = now.body.nextBlock := by
    intro other
    rw [Has, body, Function.block?_addBlock fit.started, Has]
    split_ifs with same <;> simp [same]
  have exit : ∀ other, later.body.exit? other = now.body.exit? other := by
    rw [body]
    exact fun other => Function.exit?_addBlock fit.started hint other
  have code : ∀ other, later.body.code other = now.body.code other := by
    rw [body]
    exact fun other => Function.code_addBlock fit.started hint other
  have plain := Function.plain_of_code code
  have slots := Function.slots_of_code code
  have sets : ∀ name, later.body.Sets name → now.body.Sets name := fun name =>
    (Function.sets_of_code code).1
  have params : later.body.params = now.body.params := by
    rw [body, Function.params_addBlock]
  have new : ¬ now.Has now.body.nextBlock := by
    rw [Has, Function.block?_nextBlock fit.started]
    exact Bool.false_ne_true
  have fit' : later.Fit := by
    refine ⟨⟨func, current, body ▸ stored⟩, fun cursor positioned => ?_, ?_,
      fit.arranged.of_code code, slots ▸ fit.count, fun number set => fit.temps number (sets _ set),
      fun text set => fit.names text (sets _ set)⟩
    · obtain ⟨current', opened'⟩ := fit.cursor cursor positioned
      exact ⟨current', (has _).2 (Or.inl opened'.1), (exit _).trans opened'.2⟩
    · rw [body, Function.isEmpty_addBlock]
  have grown : now.body.Extends later.body :=
    .of_code code params (fun other old => (has other).2 (Or.inl old))
      fun other terminator closed => (exit other).trans closed
  refine ⟨fit', ⟨rfl, grown, fun other _ _ => ⟨plain other, exit other⟩, fun _ => Or.inl⟩, rfl, new,
    fun same => new (same ▸ fit.entry), ⟨⟨(has _).2 (Or.inr rfl), ?_⟩, fun here => ?_⟩, ?_, plain⟩
  · rw [exit, Function.exit?_nextBlock fit.started]
  · exact new (fit.opened here).1
  · rw [plain, Function.plain, Function.code_nextBlock fit.started]
    rfl

/-- Nothing was added to a block but its terminator. -/
structure Exits (now later : Builder) (id : BlockId) (terminator : Terminator) : Prop where
  plain : later.body.plain id = now.body.plain id
  exit : later.body.exit? id = some terminator

/-- The block at the cursor was closed. -/
structure Closes (now later : Builder) (id : BlockId) (terminator : Terminator) : Prop extends
    Exits now later id terminator where
  fit : later.Fit
  leads : Leads now later
  here : later.here? = none

theorem Fit.terminate {terminator : Terminator} (fit : now.Fit) (here : now.here? = some id) :
    Ensures (Build.terminate terminator) now fun _ later => Closes now later id terminator := by
  obtain ⟨cursor, positioned, rfl⟩ := Option.map_eq_some_iff.1 here
  obtain ⟨current, opened⟩ := fit.cursor cursor positioned
  obtain ⟨block, found⟩ := Option.isSome_iff_exists.1 opened.1
  simp only [Build.terminate, Build.insertionPoint, Build.terminateAt, ensures_bind, ensures_get,
    positioned, ensures_pure]
  rw [ensures_ask (fit.checkOpen current opened), ensures_change, ensures_modify]
  let later : Builder := { now with
    cursor := none
    target := now.target.modifyBlock cursor.func cursor.block fun found =>
      found.terminate terminator }
  obtain ⟨stored, body⟩ := fit.changed later (fun function => function.modifyBlock cursor.block
    fun found => found.terminate terminator) current rfl rfl
  have code : ∀ other, later.body.code other = now.body.code other := by
    rw [body]
    exact fun other => Function.code_terminate now.body cursor.block other terminator
  have exit : ∀ other, later.body.exit? other =
      if other = cursor.block then some terminator else now.body.exit? other := by
    rw [body]
    exact Function.exit?_terminate found terminator
  have has : ∀ other, later.Has other ↔ now.Has other := fun other => by
    rw [Has, body, Function.isSome_block?_modifyBlock, Has]
  have plain := Function.plain_of_code code
  have slots := Function.slots_of_code code
  have sets : ∀ name, later.body.Sets name → now.body.Sets name := fun name =>
    (Function.sets_of_code code).1
  have fit' : later.Fit := by
    refine ⟨⟨cursor.func, current, body ▸ stored⟩, fun _ positioned => (by cases positioned), ?_,
      fit.arranged.of_code code, slots ▸ fit.count, fun number set => fit.temps number (sets _ set),
      fun text set => fit.names text (sets _ set)⟩
    rw [body]
    exact started_modifyBlock fit.started
  have grown : now.body.Extends later.body := by
    refine .of_code code (by rw [body]; rfl) (fun other => (has other).2)
      fun other terminator closed => ?_
    rw [exit, if_neg]
    · exact closed
    · rintro rfl
      rw [opened.2] at closed
      cases closed
  refine ⟨⟨plain _, (exit _).trans (if_pos rfl)⟩, fit',
    ⟨rfl, grown, fun other _ elsewhere => ⟨plain other, ?_⟩, fun _ positioned => ?_⟩, rfl⟩
  · rw [exit, if_neg]
    rintro rfl
    exact elsewhere here
  · cases positioned

/-! ### The cursor -/

/-- The cursor was moved to a block that waited. -/
structure Moves (now later : Builder) (id : BlockId) : Prop where
  fit : later.Fit
  current : later.current = now.current
  body : later.body = now.body
  here : later.here? = some id

theorem Fit.positionAt (fit : now.Fit) (current : now.current = some func) (opened : now.Open id) :
    Ensures (Build.positionAt func id) now fun _ later => Moves now later id := by
  unfold Build.positionAt
  rw [ensures_bind, Moment.ensures_ensureEntry (fit.found current) fit.started, ensures_bind,
    ensures_ask (fit.checkOpen current opened), ensures_modify]
  have entered : now.enter func = now := by
    rw [Builder.enter, if_pos current]
  rw [entered]
  refine ⟨⟨fit.current, fun cursor positioned => ?_, fit.started, fit.arranged, fit.count, fit.temps,
    fit.names⟩, rfl, rfl, rfl⟩
  cases positioned
  exact ⟨current, opened⟩

/-- A construct may go on in a block that it has made. -/
theorem Leads.moved (leads : Leads base now) (moves : Moves now later id) (new : ¬ base.Has id) :
    Leads base later := by
  have body := moves.body
  refine ⟨moves.current.trans leads.current, body ▸ leads.grown, fun other found elsewhere => ?_,
    fun other here => ?_⟩
  · rw [body]
    exact leads.others other found elsewhere
  · rw [moves.here] at here
    cases here
    exact Or.inr new

/-- Nothing was done to the function. -/
structure Stays (now later : Builder) : Prop where
  fit : later.Fit
  current : later.current = now.current
  body : later.body = now.body
  here : later.here? = now.here?

theorem Stays.leads (stays : Stays now later) : Leads now later := by
  have body := stays.body
  refine ⟨stays.current, body ▸ .refl _, fun id _ _ => ?_, fun id here => Or.inl (stays.here ▸ here)⟩
  rw [body]
  exact ⟨rfl, rfl⟩

theorem Fit.pin (fit : now.Fit) (value : Value) :
    Ensures (Build.pin value) now fun _ later => Stays now later := by
  unfold Build.pin
  cases value.regName? with
  | none => exact ⟨fit, rfl, rfl, rfl⟩
  | some name =>
    exact ⟨⟨fit.current, fit.cursor, fit.started, fit.arranged, fit.count, fit.temps, fit.names⟩, rfl,
      rfl, rfl⟩

/-- A block other than the one the cursor moves to keeps waiting. -/
theorem Moves.waits (moves : Moves now later id) (opened : now.Open other) (differs : other ≠ id) :
    later.Waits other := by
  refine ⟨?_, fun here => ?_⟩
  · rw [Open, Has, moves.body]
    exact opened
  · rw [moves.here] at here
    cases here
    exact differs rfl

end Builder

end TreeLowering.Lowering
