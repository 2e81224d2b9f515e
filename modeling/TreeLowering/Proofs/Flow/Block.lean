/-
This file proves what happens to the blocks of a valid moment: how a block is added, how one is
closed, and how the cursor goes from one to another. A block that was added waits, open, until the
cursor comes to it.
-/

import TreeLowering.Proofs.Flow.Step

namespace TreeLowering.Lowering

open TreeLowering.Ir TreeLowering.Tree

namespace Moment

variable {base now : Moment} {func : FuncId} {id : BlockId}

/-! ### New blocks -/

/-- Whether a block waits for code, with the registers in `known` set at its beginning. -/
structure Ready (now : Moment) (id : BlockId) (known : Register → Prop) : Prop where
  inner : id ≠ Function.entryId
  found : now.Has id
  phiFree : now.body.PhiFree id
  avail : ∀ reg, now.avail id reg ↔ known reg

theorem Ready.mono {known : Register → Prop} (ready : base.Ready id known)
    (grows : Grows base now) : now.Ready id known :=
  ⟨ready.inner, grows.blocks id ready.found, grows.phiFree id ready.found ready.phiFree,
    fun reg => (grows.avail id ready.found reg).trans (ready.avail reg)⟩

theorem Ready.target {known : Register → Prop} (ready : now.Ready id known)
    (covered : ∀ reg, known reg → now.Known reg) : now.Target id :=
  ⟨ready.inner, ready.found, ready.phiFree, fun reg available =>
    covered reg ((ready.avail reg).1 available)⟩

/-- What a new block leaves behind. -/
structure Opened (now next : Moment) (id : BlockId) (known : Register → Prop) : Prop where
  valid : next.Valid
  grows : Grows now next
  here : next.here? = now.here?
  knownHere : ∀ reg, next.Known reg ↔ now.Known reg
  ready : next.Ready id known
  new : ¬ now.Has id
  bare : next.body.code id = []
  waiting : ∀ other, next.Waiting other ↔ now.Waiting other ∨ other = id
  unentered : ∀ source, ¬ next.body.Precedes source id

/-- The moment after a block was added, with the registers in `known` set at its beginning. -/
def withBlock (now : Moment) (func : FuncId) (hint : String) (known : Register → Prop) : Moment :=
  ⟨{ now.builder with
      target := now.builder.target.modifyFunction func (fun function => function.addBlock hint)
        (Function.name_addBlock hint) },
    fun id reg => if id = now.body.nextBlock then known reg else now.avail id reg⟩

theorem withBlock_avail {hint : String} {known : Register → Prop} (old : id ≠ now.body.nextBlock)
    (reg : Register) : (now.withBlock func hint known).avail id reg ↔ now.avail id reg := by
  simp only [withBlock, if_neg old]

section WithBlock

variable {hint : String} {known : Register → Prop} (valid : now.Valid)
  (current : now.builder.current = some func)

include current in
theorem withBlock_edited :
    Edited now (now.withBlock func hint known) fun function => function.addBlock hint :=
  ⟨rfl, fun func current' => by
    cases current.symm.trans current'; rfl⟩

include valid current

theorem withBlock_body : (now.withBlock func hint known).body = now.body.addBlock hint :=
  (withBlock_edited current).body valid

theorem withBlock_code (id : BlockId) :
    (now.withBlock func hint known).body.code id = now.body.code id := by
  rw [withBlock_body valid current]
  exact Function.code_addBlock valid.labelled.started hint id

theorem withBlock_exit (id : BlockId) :
    (now.withBlock func hint known).body.exit? id = now.body.exit? id := by
  rw [withBlock_body valid current]
  exact Function.exit?_addBlock valid.labelled.started hint id

theorem withBlock_has (id : BlockId) :
    (now.withBlock func hint known).Has id ↔ now.Has id ∨ id = now.body.nextBlock := by
  rw [Has, withBlock_body valid current, Function.block?_addBlock valid.labelled.started, Has]
  split_ifs with same
  · simp [same]
  · exact ⟨Or.inl, fun found => found.resolve_right same⟩

theorem withBlock_open (id : BlockId) :
    (now.withBlock func hint known).Open id ↔ now.Open id ∨ id = now.body.nextBlock := by
  rw [Open, Open, withBlock_has valid current, withBlock_exit valid current]
  constructor
  · rintro ⟨found | same, opened⟩
    · exact Or.inl ⟨found, opened⟩
    · exact Or.inr same
  · rintro (⟨found, opened⟩ | rfl)
    · exact ⟨Or.inl found, opened⟩
    · exact ⟨Or.inr rfl, Function.exit?_nextBlock valid.labelled.started⟩

omit current in
theorem ne_nextBlock {id : BlockId} (found : now.Has id) : id ≠ now.body.nextBlock := by
  rintro rfl
  rw [Has, Function.block?_nextBlock valid.labelled.started] at found
  cases found

theorem withBlock_names (name : ValueName) :
    (now.withBlock func hint known).body.Names name ↔ now.body.Names name := by
  simp only [Function.Names, Function.Present, Function.Defines, withBlock_code valid current]

theorem withBlock_known (reg : Register) :
    (now.withBlock func hint known).Known reg ↔ now.Known reg := by
  refine exists_congr fun id => and_congr_right fun here => ?_
  obtain ⟨cursor, positioned, rfl⟩ := Option.map_eq_some_iff.1 here
  have old := ne_nextBlock valid (valid.cursor cursor positioned).2.1
  simp only [Function.KnownAfter, Function.KnownAt, Function.Defines, Function.IsSlot,
    withBlock_code valid current, withBlock_avail old]

theorem withBlock_valid (present : ∀ reg, known reg → now.body.Present reg) :
    (now.withBlock func hint known).Valid := by
  have body := @withBlock_body now func hint known valid current
  refine (withBlock_edited current).valid valid (fun cursor positioned => ?_)
    (valid.labelled.addBlock hint)
    (valid.certified.addBlock valid.labelled.started hint present)
    (valid.slots.of_code (Function.code_addBlock valid.labelled.started hint _))
    (fun number named => ?_) fun text named => ?_
  · obtain ⟨inside, unclosed⟩ := valid.cursor cursor positioned
    exact ⟨inside, (withBlock_open valid current _).2 (Or.inl unclosed)⟩
  · exact valid.temps number ((withBlock_names valid current _).1 (body ▸ named))
  · exact valid.names text ((withBlock_names valid current _).1 (body ▸ named))

theorem withBlock_grows : Grows now (now.withBlock func hint known) := by
  have code := @withBlock_code now func hint known valid current
  refine ⟨rfl, ?_, ⟨?_, fun id inst member => by rwa [code]⟩,
    fun id found => (withBlock_has valid current id).2 (Or.inl found), fun id found reg => ?_,
    fun id _ free inst member => free inst (code id ▸ member), fun _ => id, fun name idle => ?_,
    fun func => (withBlock_edited current).beside⟩
  · rw [withBlock_body valid current, Function.name_addBlock]
  · rw [withBlock_body valid current, Function.params_addBlock]
  · exact withBlock_avail (ne_nextBlock valid found) reg
  · obtain ⟨ty, aggregate, id, inst, member, same⟩ := idle.present
    refine ⟨⟨ty, aggregate, id, inst, by rwa [code], same⟩, idle.unpinned,
      fun id => ?_, fun id => ?_⟩
    · rw [code]
      exact idle.unused.code id
    · rw [withBlock_exit valid current]
      exact idle.unused.exits id

theorem withBlock_opened (present : ∀ reg, known reg → now.body.Present reg) :
    Opened now (now.withBlock func hint known) now.body.nextBlock known := by
  have started := valid.labelled.started
  have bare : (now.withBlock func hint known).body.code now.body.nextBlock = [] := by
    rw [withBlock_code valid current, Function.code_nextBlock started]
  refine ⟨withBlock_valid valid current present, withBlock_grows valid current, rfl,
    withBlock_known valid current, ⟨fun same => ?_, (withBlock_has valid current _).2 (Or.inr rfl),
      fun inst member => ?_, fun reg => ?_⟩, fun found => ne_nextBlock valid found rfl, bare,
    fun id => ?_, fun source edge => ?_⟩
  · obtain ⟨entry, found, _⟩ := valid.labelled.entry
    rw [← same, Function.block?_nextBlock started] at found
    cases found
  · rw [bare] at member
    cases member
  · simp only [withBlock, if_true]
  · rw [Waiting, withBlock_open valid current, Waiting]
    constructor
    · rintro ⟨opened | rfl, elsewhere⟩
      · exact Or.inl ⟨opened, elsewhere⟩
      · exact Or.inr rfl
    · rintro (⟨opened, elsewhere⟩ | rfl)
      · exact ⟨Or.inl opened, elsewhere⟩
      · refine ⟨Or.inr rfl, fun here => ?_⟩
        obtain ⟨cursor, positioned, same⟩ := Option.map_eq_some_iff.1 here
        exact ne_nextBlock valid (valid.cursor cursor positioned).2.1 same
  · obtain ⟨terminator, found, successor⟩ := edge
    rw [withBlock_exit valid current] at found
    exact ne_nextBlock valid (valid.certified.inner source _ ⟨terminator, found, successor⟩).2 rfl

end WithBlock

/-- A new block may take any registers that are set somewhere. -/
theorem blockOpened {known : Register → Prop} (valid : now.Valid) (hint : String)
    (present : ∀ reg, known reg → now.body.Present reg) :
    Ensures (Build.newBlock hint) now.builder fun id after => ∃ next : Moment,
      next.builder = after ∧ Opened now next id known := by
  obtain ⟨func, current, _⟩ := valid.current
  exact ensures_newBlock current (valid.getFunction current)
    ⟨now.withBlock func hint known, rfl, withBlock_opened valid current present⟩

/-! ### Terminators -/

/-- What the end of a block leaves behind. -/
structure Closed (base now next : Moment) (id : BlockId) (terminator : Terminator) : Prop where
  valid : next.Valid
  grows : Grows base next
  here : next.here? = none
  avail : next.avail = now.avail
  code : ∀ other, next.body.code other = now.body.code other
  params : next.body.params = now.body.params
  blocks : ∀ other, next.Has other ↔ now.Has other
  waiting : ∀ other, next.Waiting other ↔ now.Waiting other
  precedes : ∀ source target, next.body.Precedes source target ↔
    now.body.Precedes source target ∨ source = id ∧ target ∈ terminator.successors

theorem dead_of_here (here : now.here? = none) : ¬ now.Live := by
  rw [live_iff, here]
  simp

theorem here_of_dead (dead : ¬ now.Live) : now.here? = none := by
  cases here : now.here? with
  | none => rfl
  | some id => exact absurd (live_iff.2 ⟨id, here⟩) dead

theorem Closed.since {next : Moment} {terminator : Terminator} (since : Since base now)
    (closed : Closed base now next id terminator) : Since base next :=
  ⟨closed.grows, fun other => (closed.waiting other).trans (since.waiting other),
    fun live => absurd live (dead_of_here closed.here)⟩

/-- A block that is ready stays so while another one is closed. -/
theorem Closed.ready {next : Moment} {terminator : Terminator} {other : BlockId}
    {known : Register → Prop} (closed : Closed base now next id terminator)
    (ready : now.Ready other known) : next.Ready other known := by
  refine ⟨ready.inner, (closed.blocks other).2 ready.found, fun inst member => ?_, fun reg => ?_⟩
  · rw [closed.code] at member
    exact ready.phiFree inst member
  · rw [closed.avail]
    exact ready.avail reg

/-- The moment after the block at the cursor was closed. -/
def closing (now : Moment) (cursor : Cursor) (terminator : Terminator) : Moment :=
  ⟨{ now.builder with
      target := now.builder.target.modifyBlock cursor.func cursor.block fun found =>
        found.terminate terminator
      cursor := none },
    now.avail⟩

section Closing

variable {cursor : Cursor} {terminator : Terminator} (valid : now.Valid)
  (positioned : now.builder.cursor = some cursor)

include valid positioned

theorem closing_edited : Edited now (now.closing cursor terminator) fun function =>
    function.modifyBlock cursor.block fun found => found.terminate terminator := by
  obtain ⟨current, _⟩ := valid.cursor cursor positioned
  exact ⟨rfl, fun func current' => by cases current.symm.trans current'; rfl⟩

theorem closing_body : (now.closing cursor terminator).body =
    now.body.modifyBlock cursor.block fun found => found.terminate terminator :=
  (closing_edited valid positioned).body valid

theorem closing_code (other : BlockId) :
    (now.closing cursor terminator).body.code other = now.body.code other := by
  rw [closing_body valid positioned]
  exact Function.code_terminate now.body cursor.block other terminator

theorem closing_exit (other : BlockId) : (now.closing cursor terminator).body.exit? other =
    if other = cursor.block then some terminator else now.body.exit? other := by
  obtain ⟨_, opened⟩ := valid.cursor cursor positioned
  obtain ⟨block, found⟩ := Option.isSome_iff_exists.1 opened.1
  rw [closing_body valid positioned]
  exact Function.exit?_terminate found terminator other

theorem closing_has (other : BlockId) : (now.closing cursor terminator).Has other ↔ now.Has other := by
  rw [Has, closing_body valid positioned, Function.isSome_block?_modifyBlock, Has]

/-- The terminator may read what it reads and go where it goes. -/
theorem closing_valid (reads : ∀ value ∈ terminator.operands, now.Reads value)
    (targets : ∀ target ∈ terminator.successors, now.Target target) :
    (now.closing cursor terminator).Valid := by
  have here : now.here? = some cursor.block := congrArg (Option.map Cursor.block) positioned
  have body := @closing_body now cursor terminator valid positioned
  obtain ⟨_, opened⟩ := valid.cursor cursor positioned
  obtain ⟨block, found⟩ := Option.isSome_iff_exists.1 opened.1
  have names : ∀ name, (now.closing cursor terminator).body.Names name ↔ now.body.Names name :=
    fun name => by
      simp only [Function.Names, Function.Present, Function.Defines, closing_code valid positioned]
  refine (closing_edited valid positioned).valid valid
    (fun _ positioned => by cases positioned) (valid.labelled.modifyBlock _ (fun _ => rfl) fun _ => rfl)
    (valid.certified.terminate found opened.2 (fun value operand => ?_)
      (fun target successor => ⟨(targets target successor).inner, (targets target successor).found⟩)
      (fun target successor => (targets target successor).phiFree)
      fun target successor reg available => ?_)
    (valid.slots.of_code (body ▸ closing_code valid positioned Function.entryId))
    (fun number named => valid.temps number ((names _).1 (body ▸ named)))
    fun text named => valid.names text ((names _).1 (body ▸ named))
  · exact Value.Readable.mono (reads value operand) fun reg => (known_iff here).1
  · exact (known_iff here).1 ((targets target successor).known reg available)

/-- A terminator reads no idle register. -/
theorem closing_grows (grows : Grows base now)
    (own : ∀ value ∈ terminator.operands, ∀ name, value.regName? = some name → ¬ base.Idle name) :
    Grows base (now.closing cursor terminator) where
  current := grows.current
  name := by
    rw [closing_body valid positioned]
    exact grows.name
  within := by
    refine ⟨?_, fun other inst member => ?_⟩
    · rw [closing_body valid positioned]
      exact grows.within.params
    · rw [closing_code valid positioned]
      exact grows.within.code other inst member
  blocks other old := (closing_has valid positioned other).2 (grows.blocks other old)
  avail := grows.avail
  phiFree other old free inst member :=
    grows.phiFree other old free inst (closing_code valid positioned other ▸ member)
  pinned := grows.pinned
  idle name idle := by
    have still := grows.idle name idle
    refine ⟨?_, still.unpinned, fun other => ?_, fun other terminator' ended value operand => ?_⟩
    · simpa only [Function.Present, Function.Defines, closing_code valid positioned]
        using still.present
    · rw [closing_code valid positioned]
      exact still.unused.code other
    · rw [closing_exit valid positioned] at ended
      split_ifs at ended
      · cases ended
        exact fun named => own value operand name named idle
      · exact still.unused.exits other terminator' ended value operand
  beside func current := (grows.beside func current).trans
    ((closing_edited valid positioned).beside (grows.current.trans current))

end Closing

/-- Closing a block needs operands that may be used and targets that may be jumped to. -/
theorem blockClosed {terminator : Terminator} (grows : Grows base now) (valid : now.Valid)
    (here : now.here? = some id) (usable : ∀ value ∈ terminator.operands, Usable base now value)
    (targets : ∀ target ∈ terminator.successors, now.Target target) :
    Ensures (Build.terminate terminator) now.builder fun _ after => ∃ next : Moment,
      next.builder = after ∧ Closed base now next id terminator := by
  obtain ⟨cursor, positioned, rfl⟩ := Option.map_eq_some_iff.1 here
  obtain ⟨current, opened⟩ := valid.cursor cursor positioned
  obtain ⟨block, found⟩ := Option.isSome_iff_exists.1 opened.1
  have body := @closing_body now cursor terminator valid positioned
  simp only [Build.terminate, Build.insertionPoint, Build.terminateAt, ensures_bind, ensures_get,
    positioned, ensures_pure]
  rw [ensures_ask (valid.checkOpen current opened), ensures_change, ensures_modify]
  refine ⟨now.closing cursor terminator, rfl,
    closing_valid valid positioned (fun value operand => (usable value operand).reads) targets,
    closing_grows valid positioned grows (fun value operand => (usable value operand).own), rfl, rfl,
    closing_code valid positioned, by rw [body]; rfl, closing_has valid positioned, fun other => ?_,
    fun source target => ?_⟩
  · rw [Waiting, Open, closing_has valid positioned, closing_exit valid positioned, Waiting, Open, here]
    split_ifs with same
    · simp [same]
    · simp [closing, here?, Ne.symm same]
  · rw [body]
    exact Function.precedes_terminate found opened.2

/-! ### The cursor -/

theorem Valid.open_iff (valid : now.Valid) (other : BlockId) :
    now.Open other ↔ now.Waiting other ∨ now.here? = some other := by
  constructor
  · intro opened
    by_cases here : now.here? = some other
    · exact Or.inr here
    · exact Or.inl ⟨opened, here⟩
  · rintro (waiting | here)
    · exact waiting.1
    · obtain ⟨cursor, positioned, rfl⟩ := Option.map_eq_some_iff.1 here
      exact (valid.cursor cursor positioned).2

/-- What a move of the cursor leaves behind. -/
structure Moved (now next : Moment) (id : BlockId) : Prop where
  valid : next.Valid
  grows : Grows now next
  here : next.here? = some id
  avail : next.avail = now.avail
  body : next.body = now.body
  waiting : ∀ other, next.Waiting other ↔ now.Open other ∧ other ≠ id

/-- The cursor can be moved to any open block. -/
theorem cursorMoved (valid : now.Valid) (current : now.builder.current = some func)
    (opened : now.Open id) :
    Ensures (Build.positionAt func id) now.builder fun _ after => ∃ next : Moment,
      next.builder = after ∧ Moved now next id := by
  obtain ⟨func', current', stored⟩ := valid.current
  cases current.symm.trans current'
  unfold Build.positionAt
  rw [ensures_bind, ensures_ensureEntry stored valid.labelled.started, ensures_bind,
    ensures_ask (valid.checkOpen current opened), ensures_modify]
  have entered : now.builder.enter func = now.builder := by
    rw [Builder.enter, if_pos current]
  rw [entered]
  let next : Moment := ⟨{ now.builder with cursor := some ⟨func, id⟩ }, now.avail⟩
  have body : next.body = now.body := rfl
  refine ⟨next, rfl, ⟨valid.current, fun cursor positioned => ?_, valid.labelled, valid.certified,
    valid.slots, valid.temps, valid.names⟩, .of_body rfl body rfl (fun _ member => member)
    (fun _ idle => idle.unpinned) (fun func _ => .refl func _), rfl, rfl, body, fun other => ?_⟩
  · cases positioned
    exact ⟨current, opened⟩
  · rw [Waiting, opened_of_body body]
    simp [next, here?, eq_comm]

end Moment

end TreeLowering.Lowering
