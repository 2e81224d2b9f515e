/-
This file proves what the steps of the builder do to a valid moment. Each lemma says when a step
succeeds, that the moment after it is valid again, and what it kept. Steps that read an operand
take the moment `base` from which on the operand is the reader's own.
-/

import TreeLowering.Proofs.Flow.Moment
import TreeLowering.Proofs.Flow.Name

namespace TreeLowering.Ir

/-! ### Labels -/

namespace Function

variable {function : Function}

theorem Labelled.modifyBlock (labelled : function.Labelled)
    (id : BlockId) {change : Block → Block} (same : ∀ block, (change block).id = block.id)
    (label : ∀ block, (change block).label = block.label) :
    (function.modifyBlock id change).Labelled := by
  have origin : ∀ other block, (function.modifyBlock id change).block? other = some block →
      ∃ old, function.block? other = some old ∧ old.id = block.id ∧ old.label = block.label := by
    intro other block found
    rw [block?_modifyBlock] at found
    split_ifs at found
    · obtain ⟨old, known, rfl⟩ := Option.map_eq_some_iff.1 found
      exact ⟨old, known, (same old).symm, (label old).symm⟩
    · exact ⟨block, found, rfl, rfl⟩
  refine ⟨?_, fun other block found => ?_, fun other block found inner => ?_⟩
  · obtain ⟨entry, found, named⟩ := labelled.entry
    have some := isSome_block?_modifyBlock function id entryId change
    rw [found, Option.isSome_some, Option.isSome_iff_exists] at some
    obtain ⟨entry', found'⟩ := some
    obtain ⟨old, known, _, label⟩ := origin _ entry' found'
    cases found.symm.trans known
    exact ⟨entry', found', label ▸ named⟩
  · obtain ⟨old, known, id, _⟩ := origin other block found
    exact id ▸ labelled.ids other old known
  · obtain ⟨old, known, _, label⟩ := origin other block found
    exact label ▸ labelled.labels other old known inner

theorem Labelled.started (labelled : function.Labelled) : function.blocks.isEmpty = false := by
  obtain ⟨block, found, _⟩ := labelled.entry
  cases empty : function.blocks.isEmpty with
  | false => rfl
  | true =>
    rw [block?, Array.isEmpty_iff.1 empty] at found
    cases found

theorem Labelled.addBlock (labelled : function.Labelled) (hint : String) :
    (function.addBlock hint).Labelled := by
  have blocks := block?_addBlock labelled.started hint
  have inner : entryId ≠ function.nextBlock := by
    obtain ⟨block, found, _⟩ := labelled.entry
    intro same
    rw [same, block?_nextBlock labelled.started] at found
    cases found
  refine ⟨?_, fun other block found => ?_, fun other block found inner => ?_⟩
  · obtain ⟨entry, found, named⟩ := labelled.entry
    exact ⟨entry, by rw [blocks, if_neg inner, found], named⟩
  · rw [blocks] at found
    split_ifs at found with new
    · cases found
      rfl
    · exact labelled.ids other block found
  · rw [blocks] at found
    split_ifs at found with new
    · cases found
      exact ⟨hint, rfl⟩
    · exact labelled.labels other block found inner

end Function

/-! ### Slots -/

namespace Function

variable {function second : Function} {count : Nat}

theorem BeginsWithSlots.of_code (begins : function.BeginsWithSlots count)
    (same : second.code entryId = function.code entryId) : second.BeginsWithSlots count := by
  rwa [BeginsWithSlots, same]

theorem BeginsWithSlots.append (begins : function.BeginsWithSlots count) {id : BlockId}
    {block : Block} (found : function.block? id = some block) (inst : Instruction) :
    (function.modifyBlock id fun found => found.append inst).BeginsWithSlots count := by
  obtain ⟨slots, rest, split, length, allocas⟩ := begins
  by_cases here : entryId = id
  · refine ⟨slots, rest ++ [inst], ?_, length, allocas⟩
    rw [code_append found, if_pos here, ← here, split, List.append_assoc]
  · refine ⟨slots, rest, ?_, length, allocas⟩
    rw [code_append found, if_neg here, split]

/-- A new slot is counted with those before it. -/
theorem BeginsWithSlots.insert (begins : function.BeginsWithSlots count) {block : Block}
    (found : function.block? entryId = some block) {inst : Instruction}
    (slot : inst.op.isAlloca = true) :
    (function.modifyBlock entryId fun found => found.insert count inst).BeginsWithSlots
      (count + 1) := by
  obtain ⟨slots, rest, split, rfl, allocas⟩ := begins
  refine ⟨slots ++ [inst], rest, ?_, by simp, fun other member => ?_⟩
  · rw [code_insert found, if_pos rfl, split]
    simp
  · rcases List.mem_append.1 member with old | new
    · exact allocas other old
    · rwa [List.mem_singleton.1 new]

/-- What is not a slot may be dropped. -/
theorem BeginsWithSlots.filter (begins : function.BeginsWithSlots count) {keep : Instruction → Bool}
    (kept : ∀ inst ∈ function.code entryId, inst.op.isAlloca = true → keep inst = true)
    (code : second.code entryId = (function.code entryId).filter keep) :
    second.BeginsWithSlots count := by
  obtain ⟨slots, rest, split, length, allocas⟩ := begins
  refine ⟨slots, rest.filter keep, ?_, length, allocas⟩
  have whole : slots.filter keep = slots := List.filter_eq_self.2 fun inst member =>
    kept inst (by rw [split]; exact List.mem_append_left _ member) (allocas inst member)
  rw [code, split, List.filter_append, whole]

end Function

namespace Module

/-! ### One function of a module -/

/-- What is found where one function was changed. -/
theorem function?_modify {first second : Module} {func : FuncId} {change : Function → Function}
    (modified : second.functions = first.functions.modify func.index change) (other : FuncId) :
    second.function? other =
      if other = func then (first.function? other).map change else first.function? other := by
  obtain ⟨index⟩ := func
  obtain ⟨index'⟩ := other
  simp only [Tables.function?, modified, Array.getElem?_modify, FuncId.mk.injEq]
  by_cases same : index = index'
  · rw [if_pos same, if_pos same.symm]
  · rw [if_neg same, if_neg fun equal => same equal.symm]

theorem function?_modifyFunction (target : Module) (func other : FuncId)
    (change : Function → Function) (named : ∀ function, (change function).name = function.name) :
    (target.modifyFunction func change named).function? other =
      if other = func then (target.function? other).map change else target.function? other :=
  function?_modify rfl other

theorem Beside.modify {first second : Module} {func : FuncId} {change : Function → Function}
    (modified : second.functions = first.functions.modify func.index change) :
    Beside func first second := by
  refine ⟨fun other differs function found => ?_, fun other differs missing function found => ?_⟩
  · rwa [function?_modify modified, if_neg differs]
  · rw [function?_modify modified, if_neg differs, missing] at found
    cases found

theorem checkRoom_of_found {target : Module} {func : FuncId} {function : Function}
    (found : target.getFunction func = .ok function) :
    target.checkRoom func =
      if function.nextBlock.index < idLimit then .ok ()
      else .error (.tooManyBlocks function.name) := by
  unfold checkRoom
  rw [found]
  rfl

theorem checkOpen_of_found {target : Module} {func : FuncId} {function : Function} {id : BlockId}
    (found : target.function? func = some function) (has : (function.block? id).isSome = true)
    (opened : function.exit? id = none) : target.checkOpen func id = .ok () := by
  obtain ⟨block, stored⟩ := Option.isSome_iff_exists.1 has
  have unclosed : block.isTerminated = false := by
    rw [Block.isTerminated, ← Function.exit?_of_block? stored, opened]
    rfl
  unfold checkOpen getBlock
  rw [getFunction_of_found found]
  change (do
    let found ← function.getBlock id
    if found.isTerminated then throw (Error.blockTerminated found.label)) = _
  rw [Function.getBlock, stored]
  change (if block.isTerminated = true then throw (Error.blockTerminated block.label)
    else pure ()) = _
  rw [unclosed]
  rfl

theorem modifyFunction_of_same {target : Module} {func : FuncId} {function : Function}
    (found : target.function? func = some function) {change : Function → Function}
    {named : ∀ function, (change function).name = function.name}
    (same : change function = function) : target.modifyFunction func change named = target := by
  have functions : target.functions.modify func.index change = target.functions := by
    refine Array.ext_getElem? fun index => ?_
    rw [Array.getElem?_modify]
    split_ifs with equal
    · subst equal
      rw [show target.functions[func.index]? = some function from found, Option.map_some, same]
    · rfl
  refine ext_tables ?_ rfl
  show target.toTables.modifyFunction func change = target.toTables
  rw [Tables.modifyFunction, functions]

end Module

end TreeLowering.Ir

namespace TreeLowering.Lowering

open TreeLowering.Ir TreeLowering.Tree

section Rules

variable {α : Type} {builder : Builder} {post : α → Builder → Prop}

theorem ensures_ask_iff (question : Module → Except Ir.Error α) :
    Ensures (Build.ask question) builder post ↔
      match question builder.target with
      | .ok answer => post answer builder
      | .error cause => (Error.ir cause).isMisstep = false := by
  unfold Ensures Build.ask
  cases question builder.target <;> rfl

theorem ensures_ask {question : Module → Except Ir.Error α} {answer : α}
    (answered : question builder.target = .ok answer) :
    Ensures (Build.ask question) builder post ↔ post answer builder := by
  rw [ensures_ask_iff, answered]

/-- The size of a type may not fit a word, which is no misstep. -/
theorem ensures_measure {question : Builder → Except Trap α}
    (holds : ∀ answer, question builder = .ok answer → post answer builder) :
    Ensures (Build.measure question) builder post := by
  unfold Ensures Build.measure
  cases measured : question builder with
  | ok answer => exact holds answer measured
  | error cause => rfl

theorem ensures_currentFunction {func : FuncId} (current : builder.current = some func)
    {post : FuncId → Builder → Prop} :
    Ensures Build.currentFunction builder post ↔ post func builder := by
  simp only [Build.currentFunction, ensures_bind, ensures_get, current, ensures_pure]

@[simp] theorem ensures_change (step : Module → Module) (post : Unit → Builder → Prop) :
    Ensures (Build.change step) builder post ↔
      post () { builder with target := step builder.target } := Iff.rfl

/-- A new block is added, unless there is no room for one. -/
theorem ensures_newBlock {func : FuncId} {function : Function} {hint : String}
    {post : BlockId → Builder → Prop} (current : builder.current = some func)
    (found : builder.target.getFunction func = .ok function)
    (holds : post function.nextBlock { builder with
      target := builder.target.modifyFunction func fun function => function.addBlock hint }) :
    Ensures (Build.newBlock hint) builder post := by
  unfold Build.newBlock Build.addBlock
  rw [ensures_bind, ensures_currentFunction current, ensures_bind, ensures_ask_iff,
    Module.checkRoom_of_found found]
  split_ifs
  · rwa [ensures_bind, ensures_ask found, ensures_bind, ensures_change, ensures_pure]
  · rfl

end Rules

namespace Moment

variable {base now after : Moment} {func : FuncId} {id : BlockId}

/-! ### Editing the function -/

theorem body_eq {function : Function} (current : now.builder.current = some func)
    (found : now.builder.target.function? func = some function) : now.body = function := by
  rw [body, current, Option.bind_some, found, Option.getD_some]

/-- The function being built was changed, and nothing else in the module. -/
structure Edited (now after : Moment) (change : Function → Function) : Prop where
  current : after.builder.current = now.builder.current
  modified : ∀ func, now.builder.current = some func →
    after.builder.target.functions = now.builder.target.functions.modify func.index change

namespace Edited

variable {change : Function → Function}

theorem found (edited : Edited now after change) (valid : now.Valid)
    (current : now.builder.current = some func) :
    after.builder.target.function? func = some (change now.body) := by
  obtain ⟨func', current', found⟩ := valid.current
  cases current.symm.trans current'
  rw [Module.function?_modify (edited.modified func current), if_pos rfl, found, Option.map_some]

theorem body (edited : Edited now after change) (valid : now.Valid) :
    after.body = change now.body := by
  obtain ⟨func, current, _⟩ := valid.current
  exact body_eq (edited.current.trans current) (edited.found valid current)

/-- What remains to be shown of a moment after a change of the function. -/
theorem valid (edited : Edited now after change) (valid : now.Valid)
    (cursor : ∀ cursor, after.builder.cursor = some cursor →
      now.builder.current = some cursor.func ∧ after.Open cursor.block)
    (labelled : (change now.body).Labelled) (certified : Certified (change now.body) after.avail)
    (slots : (change now.body).BeginsWithSlots after.builder.slotCount)
    (temps : ∀ number, (change now.body).Names (.temp number) → number < after.builder.nextTemp)
    (names : ∀ text, (change now.body).Names (.named text) → text ∈ after.builder.usedNames) :
    after.Valid := by
  obtain ⟨func, current, _⟩ := valid.current
  have body := edited.body valid
  refine ⟨⟨func, edited.current.trans current, body ▸ edited.found valid current⟩,
    fun cursor' found => ?_, body ▸ labelled, body ▸ certified, body ▸ slots, ?_, ?_⟩
  · rw [edited.current]
    exact cursor cursor' found
  · rwa [body]
  · rwa [body]

theorem beside (edited : Edited now after change) (current : now.builder.current = some func) :
    Module.Beside func now.builder.target after.builder.target :=
  .modify (edited.modified func current)

end Edited

theorem Valid.getFunction (valid : now.Valid) (current : now.builder.current = some func) :
    now.builder.target.getFunction func = .ok now.body := by
  obtain ⟨func', current', found⟩ := valid.current
  cases current.symm.trans current'
  rw [Module.getFunction, found]

theorem Valid.checkOpen (valid : now.Valid) (current : now.builder.current = some func)
    (opened : now.Open id) : now.builder.target.checkOpen func id = .ok () := by
  obtain ⟨func', current', found⟩ := valid.current
  cases current.symm.trans current'
  exact Module.checkOpen_of_found found opened.1 opened.2

/-! ### Emission -/

/-- The builder of a moment after names were handed out. -/
structure Ahead (now : Moment) (start : Builder) : Prop where
  target : start.target = now.builder.target
  cursor : start.cursor = now.builder.cursor
  current : start.current = now.builder.current
  pinned : start.pinned = now.builder.pinned
  slots : start.slotCount = now.builder.slotCount
  temps : now.builder.nextTemp ≤ start.nextTemp
  names : ∀ text ∈ now.builder.usedNames, text ∈ start.usedNames

/-- Whether a name is new to the function and known to the builder. -/
structure Fresh (now : Moment) (start : Builder) (name : ValueName) : Prop where
  new : ¬ now.body.Names name
  temp : ∀ number, name = .temp number → number < start.nextTemp
  named : ∀ text, name = .named text → text ∈ start.usedNames

/-- One instruction was added to a block, and nothing else happened to the function. -/
structure Added (now next : Moment) (id : BlockId) (inst : Instruction) : Prop where
  current : next.builder.current = now.builder.current
  cursor : next.builder.cursor = now.builder.cursor
  pinned : next.builder.pinned = now.builder.pinned
  avail : next.avail = now.avail
  name : next.body.name = now.body.name
  within : Within now.body next.body
  set : next.body.Defines id inst.register
  member : ∀ other, ∀ found ∈ next.body.code other,
    found ∈ now.body.code other ∨ other = id ∧ found = inst
  exit : ∀ other, next.body.exit? other = now.body.exit? other
  blocks : ∀ other, (next.body.block? other).isSome = (now.body.block? other).isSome
  beside : ∀ func, now.builder.current = some func →
    Module.Beside func now.builder.target next.builder.target

namespace Added

variable {next : Moment} {inst : Instruction}

theorem here? (added : Added now next id inst) : next.here? = now.here? := by
  rw [Moment.here?, added.cursor, Moment.here?]

theorem opened (added : Added now next id inst) {other : BlockId} :
    next.Open other ↔ now.Open other := by
  rw [Open, Open, Has, Has, added.blocks, added.exit]

theorem names (added : Added now next id inst) {name : ValueName} (names : next.body.Names name) :
    now.body.Names name ∨ name = inst.name := by
  obtain ⟨ty, other, found, inside, same⟩ := names
  obtain ⟨rfl, rfl⟩ := Instruction.register_eq.1 same
  rcases added.member other found inside with old | ⟨_, rfl⟩
  · exact Or.inl ⟨found.ty, other, found, old, rfl⟩
  · exact Or.inr rfl

theorem known (added : Added now next id inst) {reg : Register} (known : now.Known reg) :
    next.Known reg := by
  obtain ⟨other, here, known⟩ := known
  refine ⟨other, added.here?.trans here, ?_⟩
  rw [added.avail]
  exact added.within.knownAfter known

theorem reads (added : Added now next id inst) {value : Value} (reads : now.Reads value) :
    next.Reads value :=
  reads.mono added.within.params fun _ => added.known

/-- What nothing read before is read by the new instruction at most. -/
theorem unused (added : Added now next id inst) {name : ValueName}
    (unused : now.body.Unused name) (unread : inst.uses name = false) :
    next.body.Unused name := by
  refine ⟨fun other found inside => ?_, fun other terminator closed => ?_⟩
  · rcases added.member other found inside with old | ⟨_, rfl⟩
    · exact unused.code other found old
    · exact unread
  · rw [added.exit] at closed
    exact unused.exits other terminator closed

theorem since (added : Added now next id inst) (since : Since base now)
    (plain : base.Has id → inst.op.isPhi = false)
    (own : ∀ name, inst.uses name = true → ¬ base.Idle name) : Since base next where
  current := added.current.trans since.current
  name := added.name.trans since.name
  within := ⟨added.within.params.trans since.within.params, fun other found inside =>
    added.within.code other found (since.within.code other found inside)⟩
  blocks other found := by
    rw [Has, added.blocks]
    exact since.blocks other found
  avail other found reg := by
    rw [added.avail]
    exact since.avail other found reg
  phiFree other found free inst' inside := by
    rcases added.member other inst' inside with old | ⟨rfl, rfl⟩
    · exact since.phiFree other found free inst' old
    · exact plain found
  pinned name member := by
    rw [added.pinned]
    exact since.pinned name member
  idle name idle := by
    have still := since.idle name idle
    obtain ⟨ty, aggregate, present⟩ := still.present
    refine ⟨⟨ty, aggregate, added.within.present present⟩, ?_, added.unused still.unused ?_⟩
    · rw [added.pinned]
      exact still.unpinned
    · exact Bool.eq_false_iff.2 fun uses => own name uses idle
  beside func current := (since.beside func current).trans
    (added.beside func (since.current.trans current))
  waiting other := by
    rw [Waiting, added.opened, added.here?]
    exact since.waiting other
  here live reg known := added.known (since.here (by
    rw [Live, added.cursor] at live
    exact live) reg known)

theorem valid (added : Added now next id inst) (valid : now.Valid)
    (stored : ∀ func, now.builder.current = some func →
      next.builder.target.function? func = some next.body)
    (labelled : next.body.Labelled) (certified : Certified next.body now.avail)
    (slots : next.body.BeginsWithSlots next.builder.slotCount)
    {start : Builder} (ahead : now.Ahead start) (fresh : now.Fresh start inst.name)
    (temps : next.builder.nextTemp = start.nextTemp)
    (names : next.builder.usedNames = start.usedNames) : next.Valid := by
  obtain ⟨func, current, _⟩ := valid.current
  refine ⟨⟨func, added.current.trans current, stored func current⟩, fun cursor positioned => ?_,
    labelled, added.avail ▸ certified, slots, fun number named => ?_, fun text named => ?_⟩
  · rw [added.current]
    rw [added.opened]
    exact valid.cursor cursor (added.cursor ▸ positioned)
  · rw [temps]
    rcases added.names named with old | same
    · exact Nat.lt_of_lt_of_le (valid.temps number old) ahead.temps
    · exact fresh.temp number same.symm
  · rw [names]
    rcases added.names named with old | same
    · exact ahead.names text (valid.names text old)
    · exact fresh.named text same.symm

/-- The result of a new instruction belongs to whoever emits it. -/
theorem produced (added : Added now next id inst) (valid : now.Valid) (grows : Grows base now)
    {start : Builder} (fresh : now.Fresh start inst.name) (known : next.Known inst.register)
    (own : ∀ name, inst.uses name = true → now.body.Names name) :
    Produced base next inst.result := by
  refine ⟨known, fun name ty same aggregate => ?_⟩
  obtain ⟨rfl, rfl⟩ := Value.reg.inj same
  by_cases pinned : inst.name ∈ next.builder.pinned
  · exact Or.inl pinned
  refine Or.inr ⟨⟨⟨inst.ty, aggregate, id, added.set⟩, pinned, ?_⟩, fun names =>
    fresh.new (grows.names names)⟩
  refine added.unused (valid.certified.unused_of_absent fresh.new) ?_
  exact Bool.eq_false_iff.2 fun uses => fresh.new (own _ uses)

end Added

/-- A block of the function being built was changed so that it holds one more instruction. -/
theorem Added.of_edited {next : Moment} {inst : Instruction} {start : Builder}
    {change : Block → Block} (valid : now.Valid) (ahead : now.Ahead start)
    (fresh : now.Fresh start inst.name)
    (edited : Edited now next fun function => function.modifyBlock id change)
    (cursor : next.builder.cursor = start.cursor) (pinned : next.builder.pinned = start.pinned)
    (temps : next.builder.nextTemp = start.nextTemp)
    (names : next.builder.usedNames = start.usedNames) (avail : next.avail = now.avail)
    (within : Within now.body (now.body.modifyBlock id change))
    (code : ∀ found, found ∈ (now.body.modifyBlock id change).code id ↔
      found ∈ now.body.code id ∨ found = inst)
    (closed : ∀ block, (change block).terminator = block.terminator)
    (ids : ∀ block, (change block).id = block.id)
    (labels : ∀ block, (change block).label = block.label)
    (certified : Certified (now.body.modifyBlock id change) now.avail)
    (slots : (now.body.modifyBlock id change).BeginsWithSlots next.builder.slotCount) :
    Added now next id inst ∧ next.Valid := by
  have body := edited.body valid
  have added : Added now next id inst := by
    refine ⟨edited.current, cursor.trans ahead.cursor, pinned.trans ahead.pinned, avail,
      by rw [body]; rfl, body ▸ within, ⟨inst, ?_, rfl⟩, fun other inst' inside => ?_,
      fun other => ?_, fun other => ?_, fun func => edited.beside⟩
    · rw [body, code]
      exact Or.inr rfl
    · rw [body] at inside
      by_cases same : other = id
      · subst same
        exact ((code inst').1 inside).imp_right fun equal => ⟨rfl, equal⟩
      · rw [Function.code_modifyBlock, if_neg same] at inside
        exact Or.inl inside
    · rw [body]
      exact Function.exit?_modifyBlock_of_same _ _ _ closed
    · rw [body]
      exact Function.isSome_block?_modifyBlock _ _ _ _
  refine ⟨added, added.valid valid (fun func current => ?_) (body ▸ ?_) (body ▸ certified)
    (body ▸ slots) ahead fresh temps names⟩
  · rw [body]
    exact edited.found valid current
  · exact valid.labelled.modifyBlock _ ids labels

/-- What emitting an instruction leaves behind, and its result. -/
structure Emitted (base now next : Moment) (value : Value) (ty : Ty) : Prop where
  valid : next.Valid
  since : Since base next
  live : next.Live
  produced : Produced base next value
  typed : value.ty = ty
  kept : ∀ other, now.Reads other → next.Reads other

/-- A result that is no aggregate can be used as an address. -/
theorem Emitted.address {next : Moment} {value : Value} {ty : Ty}
    (emitted : Emitted base now next value ty) (scalar : ty.isAggregate = false) :
    next.Address value :=
  ⟨emitted.produced.reads, emitted.typed ▸ scalar⟩

/-- What an instruction at the end of the cursor's block leaves behind, whatever it is. -/
theorem appended {inst : Instruction} {start : Builder} (since : Since base now)
    (valid : now.Valid) (here : now.here? = some id) (ahead : now.Ahead start)
    (fresh : now.Fresh start inst.name)
    (certified : Certified (now.body.modifyBlock id fun found => found.append inst) now.avail)
    (plain : base.Has id → inst.op.isPhi = false)
    (own : ∀ name, inst.uses name = true → ¬ base.Idle name ∧ now.body.Names name) :
    Ensures (Build.append inst) start fun value after => ∃ next : Moment, next.builder = after ∧
      Emitted base now next value inst.ty := by
  obtain ⟨func, current, stored⟩ := valid.current
  obtain ⟨cursor, positioned, rfl⟩ := Option.map_eq_some_iff.1 here
  obtain ⟨inside, opened⟩ := valid.cursor cursor positioned
  cases current.symm.trans inside
  obtain ⟨block, found⟩ := Option.isSome_iff_exists.1 opened.1
  have checked := ahead.target ▸ valid.checkOpen current opened
  simp only [Build.append, Build.insertionPoint, Build.appendAt, ensures_bind, ensures_get,
    ahead.cursor, positioned, ensures_pure]
  rw [ensures_ask checked, ensures_change]
  let target := start.target.modifyBlock cursor.func cursor.block fun found => found.append inst
  let next : Moment := ⟨{ start with target }, now.avail⟩
  have edited : Edited now next fun function =>
      function.modifyBlock cursor.block fun found => found.append inst := by
    refine ⟨ahead.current, fun func current' => ?_⟩
    cases current.symm.trans current'
    rw [← ahead.target]
    rfl
  obtain ⟨added, valid'⟩ := Added.of_edited valid ahead fresh edited rfl rfl rfl rfl rfl
    (Certified.within_append found inst) (fun inst' => by
      rw [Function.code_append found, if_pos rfl, List.mem_append, List.mem_singleton])
    (fun _ => rfl) (fun _ => rfl) (fun _ => rfl) certified
    (ahead.slots.symm ▸ valid.slots.append found inst)
  refine ⟨next, rfl, valid', added.since since plain fun name uses => (own name uses).1,
    live_iff.2 ⟨_, added.here?.trans here⟩, ?_, rfl, fun other => added.reads⟩
  refine added.produced valid since.toGrows fresh ?_ fun name uses => (own name uses).2
  exact ⟨cursor.block, added.here?.trans here, Or.inr added.set⟩

theorem fresh_temp (valid : now.Valid) :
    now.Ahead { now.builder with nextTemp := now.builder.nextTemp + 1 } ∧
      now.Fresh { now.builder with nextTemp := now.builder.nextTemp + 1 }
        (.temp now.builder.nextTemp) := by
  refine ⟨⟨rfl, rfl, rfl, rfl, rfl, Nat.le_succ _, fun _ => id⟩, fun names => ?_, fun number same => ?_,
    fun text same => by cases same⟩
  · exact Nat.lt_irrefl _ (valid.temps _ names)
  · cases same
    exact Nat.lt_succ_self _

/-- The registers an operation reads, seen from the operands. -/
theorem own_of_usable {inst : Instruction} (valid : now.Valid)
    (usable : ∀ value ∈ inst.op.operands, Usable base now value) (name : ValueName)
    (uses : inst.uses name = true) : ¬ base.Idle name ∧ now.body.Names name := by
  simp only [Instruction.uses, List.any_eq_true, beq_iff_eq] at uses
  obtain ⟨value, operand, named⟩ := uses
  refine ⟨(usable value operand).own name named, ?_⟩
  have reads := (usable value operand).reads
  cases value <;> simp only [Value.regName?, Option.some.injEq, reduceCtorEq] at named
  case reg name' ty =>
  subst named
  exact ⟨ty, valid.present_of_known reads⟩

/-- Emitting an operation needs operands that the emitter may use. -/
theorem emitted {op : Operation} {ty : Ty} (since : Since base now) (valid : now.Valid)
    (live : now.Live) (plain : op.isPhi = false)
    (usable : ∀ value ∈ op.operands, Usable base now value) :
    Ensures (Build.emitTemp op ty) now.builder fun value after => ∃ next : Moment,
      next.builder = after ∧ Emitted base now next value ty := by
  obtain ⟨id, here⟩ := live_iff.1 live
  obtain ⟨ahead, fresh⟩ := fresh_temp valid
  obtain ⟨cursor, positioned, rfl⟩ := Option.map_eq_some_iff.1 here
  obtain ⟨block, found⟩ := Option.isSome_iff_exists.1 (valid.cursor cursor positioned).2.1
  have reads : ∀ value ∈ op.operands,
      value.Readable now.body.params (now.body.KnownAfter now.avail cursor.block) := by
    intro value operand
    exact Value.Readable.mono (usable value operand).reads fun reg => (known_iff here).1
  have certified : Certified (now.body.modifyBlock cursor.block fun found =>
      found.append ⟨.temp now.builder.nextTemp, ty, op⟩) now.avail :=
    valid.certified.append found fresh.new plain reads
  simp only [Build.emitTemp, Build.freshName, ensures_bind, ensures_get, ensures_modify,
    ensures_pure]
  exact appended since valid here ahead fresh certified (fun _ => plain) (own_of_usable valid usable)

/-- A phi is emitted at the beginning of a block that the emitter has made, with one value for each
block before it. -/
theorem emittedPhi {incoming : List (Value × BlockId)} {ty : Ty} (since : Since base now)
    (valid : now.Valid) (here : now.here? = some id) (new : ¬ base.Has id)
    (inner : id ≠ Function.entryId) (bare : now.body.code id = [])
    (once : (incoming.map Prod.snd).Nodup)
    (blocks : ∀ source, source ∈ incoming.map Prod.snd ↔ now.body.Precedes source id)
    (values : ∀ arm ∈ incoming,
      arm.1.Readable now.body.params (now.body.KnownAfter now.avail arm.2))
    (own : ∀ arm ∈ incoming, ∀ name, arm.1.regName? = some name → ¬ base.Idle name) :
    Ensures (Build.phi ty incoming) now.builder fun value after => ∃ next : Moment,
      next.builder = after ∧ Emitted base now next value ty := by
  obtain ⟨ahead, fresh⟩ := fresh_temp valid
  obtain ⟨cursor, positioned, rfl⟩ := Option.map_eq_some_iff.1 here
  obtain ⟨block, found⟩ := Option.isSome_iff_exists.1 (valid.cursor cursor positioned).2.1
  have certified : Certified (now.body.modifyBlock cursor.block fun found =>
      found.append ⟨.temp now.builder.nextTemp, ty, .phi incoming⟩) now.avail :=
    valid.certified.appendPhi found fresh.new rfl inner bare once blocks values
  simp only [Build.phi, Build.emitTemp, Build.freshName, ensures_bind, ensures_get, ensures_modify,
    ensures_pure]
  refine appended since valid here ahead fresh certified (fun found => absurd found new)
    fun name uses => ?_
  simp only [Instruction.uses, Operation.operands, List.any_eq_true, List.mem_map,
    beq_iff_eq] at uses
  obtain ⟨_, ⟨arm, arms, rfl⟩, named⟩ := uses
  refine ⟨own arm arms name named, ?_⟩
  have readable := values arm arms
  cases value : arm.1 <;> rw [value] at named readable <;>
    simp only [Value.regName?, Option.some.injEq, reduceCtorEq] at named
  case reg name' ty =>
  subst named
  exact ⟨ty, valid.certified.present_of_known readable⟩

/-! ### Stack slots -/

/-- The name of a slot is new. -/
theorem slotNamed (valid : now.Valid) (variableName : Option String) :
    Ensures (Build.slotName variableName) now.builder fun name start =>
      now.Ahead start ∧ now.Fresh start name := by
  cases variableName with
  | none =>
    simp only [Build.slotName, Build.freshName, ensures_bind, ensures_get, ensures_modify,
      ensures_pure]
    exact fresh_temp valid
  | some text =>
    simp only [Build.slotName, Build.uniqueName, ensures_bind, ensures_get, ensures_modify,
      ensures_pure]
    refine ⟨⟨rfl, rfl, rfl, rfl, rfl, Nat.le_refl _, fun _ => List.mem_cons_of_mem _⟩, fun names => ?_,
      fun number same => (by cases same), fun text same => ?_⟩
    · exact now.builder.freeNumber_not_mem _ (valid.names _ names)
    · cases same
      exact List.mem_cons_self

/-- An entry block that is there already stays as it is. -/
theorem ensures_ensureEntry {start : Builder} {function : Function}
    (found : start.target.function? func = some function)
    (started : function.blocks.isEmpty = false) {post : BlockId → Builder → Prop} :
    Ensures (Build.ensureEntry func) start post ↔ post Function.entryId start := by
  have got : start.target.getFunction func = .ok function := by
    rw [Module.getFunction, found]
  have same : function.withEntry = function := by
    rw [Function.withEntry, started]
    rfl
  unfold Build.ensureEntry
  rw [ensures_bind, ensures_ask got, ensures_bind, ensures_change, ensures_pure,
    Module.modifyFunction_of_same found same]

/-- A slot is an address, and reserving it disturbs nobody. -/
theorem reserved {ty : Ty} {variableName : Option String} (valid : now.Valid) (live : now.Live) :
    Ensures (Build.alloca ty variableName) now.builder fun address after => ∃ next : Moment,
      next.builder = after ∧ next.Valid ∧ Since now next ∧ next.Live ∧ next.Address address := by
  obtain ⟨func, current, stored⟩ := valid.current
  obtain ⟨block, found, _⟩ := valid.labelled.entry
  unfold Build.alloca
  rw [ensures_bind, ensures_currentFunction current, ensures_bind]
  refine (slotNamed valid variableName).mono fun name start ⟨ahead, fresh⟩ => ?_
  have stored' : start.target.function? func = some now.body := ahead.target ▸ stored
  have got : start.target.getBlock func Function.entryId = .ok block := by
    unfold Module.getBlock
    rw [Module.getFunction, stored']
    change now.body.getBlock Function.entryId = _
    rw [Function.getBlock, found]
  rw [ensures_bind, ensures_ensureEntry stored' valid.labelled.started]
  simp only [Build.insertAt, ensures_bind, ensures_get]
  rw [ensures_ask got, ensures_change, ensures_pure, ensures_modify, ensures_pure]
  let inst : Instruction := ⟨name, .ptr ty true, .alloca ty⟩
  let target := start.target.modifyBlock func Function.entryId fun found =>
    found.insert start.slotCount inst
  let next : Moment := ⟨{ start with target, slotCount := start.slotCount + 1 }, now.avail⟩
  have edited : Edited now next fun function =>
      function.modifyBlock Function.entryId fun found => found.insert start.slotCount inst := by
    refine ⟨ahead.current, fun func current' => ?_⟩
    cases current.symm.trans current'
    rw [← ahead.target]
    rfl
  obtain ⟨added, valid'⟩ := Added.of_edited valid ahead fresh edited rfl rfl rfl rfl rfl
    (Certified.within_insert found start.slotCount inst) (fun inst' => by
      rw [Function.code_insert found, if_pos rfl]
      conv_rhs => rw [← List.take_append_drop start.slotCount (now.body.code _)]
      simp only [List.mem_append, List.mem_cons]
      tauto)
    (fun _ => rfl) (fun _ => rfl) (fun _ => rfl)
    (valid.certified.insertSlot found start.slotCount fresh.new rfl)
    ((ahead.slots.symm ▸ valid.slots : now.body.BeginsWithSlots start.slotCount).insert found rfl)
  have live' : next.Live := by
    rw [Live, added.cursor]
    exact live
  refine ⟨next, rfl, valid', added.since (.refl now) (fun _ => rfl) (fun name uses => ?_), live', ?_,
    rfl⟩
  · cases uses
  · obtain ⟨id, here⟩ := live_iff.1 live'
    have slot : next.body.IsSlot inst.register := by
      obtain ⟨inst', member, same⟩ := added.set
      rcases added.member _ inst' member with old | ⟨_, rfl⟩
      · refine absurd ⟨inst'.ty, Function.entryId, inst', old, ?_⟩ fresh.new
        rw [Instruction.register_eq] at same ⊢
        exact ⟨same.1, rfl⟩
      · exact ⟨inst, member, rfl, same⟩
    refine (known_iff here).2 ?_
    by_cases entry : id = Function.entryId
    · subst entry
      exact Or.inr added.set
    · exact Or.inl (Or.inr ⟨entry, slot⟩)

/-! ### Steps that leave the function as it is -/

/-- A step that leaves the function as it is and pins no idle register. -/
theorem Grows.of_body {next : Moment} (current : next.builder.current = now.builder.current)
    (body : next.body = now.body) (avail : next.avail = now.avail)
    (pinned : ∀ name ∈ now.builder.pinned, name ∈ next.builder.pinned)
    (idle : ∀ name, now.Idle name → name ∉ next.builder.pinned)
    (beside : ∀ func, now.builder.current = some func →
      Module.Beside func now.builder.target next.builder.target) : Grows now next := by
  refine ⟨current, by rw [body], body ▸ ⟨rfl, fun _ _ => id⟩, fun id found => ?_, fun id _ reg => ?_,
    fun id _ free => body ▸ free, pinned, fun name quiet => ?_, beside⟩
  · rw [Has, body]
    exact found
  · rw [avail]
  · exact ⟨body ▸ quiet.present, idle name quiet, body ▸ quiet.unused⟩

theorem opened_of_body {next : Moment} (body : next.body = now.body) {id : BlockId} :
    next.Open id ↔ now.Open id := by
  rw [Open, Open, Has, Has, body]

/-- The moment after something was declared in the module. -/
def retarget (now : Moment) (target : Module) : Moment := ⟨{ now.builder with target }, now.avail⟩

theorem retarget_body {target : Module} (valid : now.Valid)
    (kept : ∀ func function, now.builder.target.function? func = some function →
      target.function? func = some function) : (now.retarget target).body = now.body := by
  obtain ⟨func, current, stored⟩ := valid.current
  exact @body_eq (now.retarget target) func now.body current (kept func _ stored)

/-- Declaring things does nothing to the function being built. -/
theorem retargeted {target : Module} (valid : now.Valid)
    (kept : ∀ func function, now.builder.target.function? func = some function →
      target.function? func = some function)
    (added : ∀ func function, now.builder.target.function? func = none →
      target.function? func = some function → function.isDeclaration = true) :
    (now.retarget target).Valid ∧ Since now (now.retarget target) := by
  obtain ⟨func, current, stored⟩ := valid.current
  have body := retarget_body valid kept
  refine ⟨⟨⟨func, current, ?_⟩, fun cursor positioned => ?_, body ▸ valid.labelled,
    body ▸ valid.certified, body ▸ valid.slots, body ▸ valid.temps, body ▸ valid.names⟩,
    .of_body rfl body rfl (fun _ => id) (fun _ idle => idle.unpinned) fun func _ =>
      ⟨fun other _ => kept other, fun other _ missing function => added other function missing⟩,
    fun id => ?_, fun _ reg known => ?_⟩
  · rw [body]
    exact kept func _ stored
  · rw [opened_of_body body]
    exact valid.cursor cursor positioned
  · rw [Waiting, opened_of_body body]
    exact Iff.rfl
  · rw [Known, body]
    exact known

/-- A binding keeps its register from being given away. -/
theorem pinned {value : Value} (since : Since base now) (valid : now.Valid) (live : now.Live)
    (produced : Produced base now value) :
    Ensures (Build.pin value) now.builder fun _ after => ∃ next : Moment, next.builder = after ∧
      next.Valid ∧ Since base next ∧ next.Live ∧ next.Settled value := by
  cases named : value.regName? with
  | none =>
    simp only [Build.pin, named, ensures_pure]
    exact ⟨now, rfl, valid, since, live, .of_constant named produced.reads⟩
  | some name =>
    simp only [Build.pin, named, ensures_modify]
    let next : Moment :=
      ⟨{ now.builder with pinned := name :: now.builder.pinned }, now.avail⟩
    refine ⟨next, rfl, ⟨valid.current, valid.cursor, valid.labelled, valid.certified, valid.slots,
      valid.temps, valid.names⟩,
      ⟨⟨since.current, since.name, since.within, since.blocks, since.avail, since.phiFree, fun name member => List.mem_cons_of_mem _ (since.pinned name member),
        fun other idle => ?_, since.beside⟩, since.waiting, since.here⟩, live, produced.reads,
      fun name' ty same _ => ?_⟩
    · have still := since.idle other idle
      refine ⟨still.present, fun member => ?_, still.unused⟩
      rcases List.mem_cons.1 member with rfl | member
      · exact (produced.usable valid since.toGrows).own other named idle
      · exact still.unpinned member
    · rw [same] at named
      cases named
      exact List.mem_cons_self

end Moment

end TreeLowering.Lowering
