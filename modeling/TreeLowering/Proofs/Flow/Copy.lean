/-
This file proves that storing a value keeps a moment valid. A store that becomes a copy drops the
load behind its value, so the value must belong to whoever stores it: its register was not there
when they started, nothing reads it and no name is bound to it.
-/

import TreeLowering.Proofs.Flow.Step

namespace TreeLowering.Lowering

open TreeLowering.Ir TreeLowering.Tree

/-- What a search for a load finds: behind the load nothing has an effect or touches its
register. -/
theorem Builder.findLoad?_spec {name : ValueName} {insts : List Instruction} {position : Nat}
    {address : Value} (found : findLoad? name insts = some (position, address)) :
    ∃ later ty earlier, insts = later ++ ⟨name, ty, .load address⟩ :: earlier ∧
      earlier.length = position ∧ ∀ inst ∈ later,
        inst.name ≠ name ∧ inst.op.hasEffects = false ∧ inst.uses name = false := by
  induction insts with
  | nil => cases found
  | cons inst earlier inductionHypothesis =>
    rw [findLoad?] at found
    split_ifs at found with same barrier
    · obtain ⟨name', ty, op⟩ := inst
      subst same
      cases op <;> cases found
      exact ⟨[], ty, earlier, rfl, rfl, fun _ member => by cases member⟩
    · obtain ⟨later, ty, before, split, length, passed⟩ := inductionHypothesis found
      refine ⟨inst :: later, ty, before, by rw [split]; rfl, length, fun other member => ?_⟩
      rcases List.mem_cons.1 member with rfl | member
      · simp only [Bool.or_eq_true, not_or, Bool.not_eq_true] at barrier
        exact ⟨same, barrier⟩
      · exact passed other member

theorem guard_eq_some_iff {condition : Bool} {answer : Unit} :
    (guard (condition = true) : Option Unit) = some answer ↔ condition = true := by
  cases condition
  · exact ⟨(fun none => by cases none), (fun impossible => by cases impossible)⟩
  · exact ⟨fun _ => rfl, fun _ => rfl⟩

/-- A type that is copied by a call is an aggregate. -/
theorem Builder.isAggregate_of_large {builder : Builder} {ty : Ty}
    (large : builder.isLargeAggregate ty = .ok true) : ty.isAggregate = true := by
  unfold isLargeAggregate at large
  split at large
  · next aggregate => exact aggregate
  · cases large

/-- A store becomes a copy when the value is large and there is a load behind it. -/
theorem Builder.copySource?_eq_some_iff {builder : Builder} {value : Value}
    {found : Cursor × Nat × Value} :
    builder.copySource? value = .ok (some found) ↔
      builder.isLargeAggregate value.ty = .ok true ∧ builder.loadBehind? value = some found := by
  unfold copySource?
  rcases builder.isLargeAggregate value.ty with _ | ⟨_ | _⟩ <;>
    simp [bind, Except.bind, pure, Except.pure]

/-- When a store becomes a copy: the value is an unpinned register that a load of this block
set. -/
theorem Builder.copySource?_spec {builder : Builder} {value origin : Value} {cursor : Cursor}
    {position : Nat} (source : builder.copySource? value = .ok (some (cursor, position, origin))) :
    ∃ name ty function block, value = .reg name ty ∧ ty.isAggregate = true ∧
      name ∉ builder.pinned ∧ builder.cursor = some cursor ∧
      builder.target.function? cursor.func = some function ∧
      function.block? cursor.block = some block ∧
      findLoad? name block.insts.toList.reverse = some (position, origin) := by
  obtain ⟨large, source⟩ := copySource?_eq_some_iff.1 source
  obtain ⟨name, named, source⟩ := Option.bind_eq_some_iff.1 source
  obtain ⟨_, unpinned, source⟩ := Option.bind_eq_some_iff.1 source
  obtain ⟨cursor', positioned, source⟩ := Option.bind_eq_some_iff.1 source
  obtain ⟨function, stored, source⟩ := Option.bind_eq_some_iff.1 source
  obtain ⟨block, found, source⟩ := Option.bind_eq_some_iff.1 source
  obtain ⟨⟨position', origin'⟩, loaded, same⟩ := Option.bind_eq_some_iff.1 source
  cases same
  rw [guard_eq_some_iff] at unpinned
  cases value with
  | reg name' ty =>
    cases named
    exact ⟨name, ty, function, block, rfl, isAggregate_of_large large, by simpa using unpinned,
      positioned, stored, found, loaded⟩
  | _ => cases named

namespace Moment

variable {base now : Moment} {func : FuncId} {id : BlockId}

theorem declared {target : Module} (valid : now.Valid)
    (declares : Module.Declares now.builder.target target) :
    (now.retarget target).Valid ∧ Since now (now.retarget target) :=
  retargeted valid declares.kept declares.added

/-! ### Dropping a load -/

/-- In a block whose names are distinct, dropping an instruction drops its name. -/
theorem eraseIdx_eq_filter {before after : List Instruction} {inst : Instruction}
    (distinct : ((before ++ inst :: after).map Instruction.name).Nodup) :
    (before ++ inst :: after).eraseIdx before.length =
      (before ++ inst :: after).filter fun other => other.name ≠ inst.name := by
  rw [List.map_append, List.map_cons, List.nodup_middle, List.nodup_cons, ← List.map_append] at distinct
  have others : ∀ other ∈ before ++ after, other.name ≠ inst.name := fun other member same =>
    distinct.1 (List.mem_map.2 ⟨other, member, same⟩)
  have kept : ∀ rest : List Instruction, (∀ other ∈ rest, other ∈ before ++ after) →
      rest.filter (fun other => other.name ≠ inst.name) = rest := fun rest inside =>
    List.filter_eq_self.2 fun other member => by simpa using others other (inside other member)
  rw [List.eraseIdx_append_of_length_le (Nat.le_refl _), Nat.sub_self, List.eraseIdx_cons_zero,
    List.filter_append, List.filter_cons_of_neg (by simp),
    kept before fun other member => List.mem_append_left _ member,
    kept after fun other member => List.mem_append_right _ member]

/-- The moment after the instruction at a position was dropped, together with its register. -/
def without (now : Moment) (func : FuncId) (id : BlockId) (position : Nat) (name : ValueName) :
    Moment :=
  ⟨{ now.builder with
      target := now.builder.target.modifyBlock func id fun found => found.remove position },
    fun other reg => now.avail other reg ∧ reg.1 ≠ name⟩

/-- What the loss of an idle register leaves behind. -/
structure Dropped (now next : Moment) (name : ValueName) : Prop where
  current : next.builder.current = now.builder.current
  cursor : next.builder.cursor = now.builder.cursor
  pinned : next.builder.pinned = now.builder.pinned
  title : next.body.name = now.body.name
  params : next.body.params = now.body.params
  avail : ∀ other reg, next.avail other reg ↔ now.avail other reg ∧ reg.1 ≠ name
  member : ∀ other inst, inst ∈ next.body.code other ↔ inst ∈ now.body.code other ∧ inst.name ≠ name
  exit : ∀ other, next.body.exit? other = now.body.exit? other
  blocks : ∀ other, (next.body.block? other).isSome = (now.body.block? other).isSome
  beside : ∀ func, now.builder.current = some func →
    Module.Beside func now.builder.target next.builder.target

namespace Dropped

variable {next : Moment} {name : ValueName}

theorem defines (dropped : Dropped now next name) {other : BlockId} {reg : Register}
    (defined : now.body.Defines other reg) (differs : reg.1 ≠ name) :
    next.body.Defines other reg := by
  obtain ⟨inst, inside, rfl⟩ := defined
  exact ⟨inst, (dropped.member other inst).2 ⟨inside, differs⟩, rfl⟩

theorem knownAfter (dropped : Dropped now next name) {other : BlockId} {reg : Register}
    (known : now.body.KnownAfter now.avail other reg) (differs : reg.1 ≠ name) :
    next.body.KnownAfter next.avail other reg := by
  rcases known with (available | ⟨inner, inst, inside, slot, rfl⟩) | defined
  · exact Or.inl (Or.inl ((dropped.avail other reg).2 ⟨available, differs⟩))
  · exact Or.inl (Or.inr ⟨inner, inst, (dropped.member _ inst).2 ⟨inside, differs⟩, slot, rfl⟩)
  · exact Or.inr (dropped.defines defined differs)

theorem known (dropped : Dropped now next name) {reg : Register} (known : now.Known reg)
    (differs : reg.1 ≠ name) : next.Known reg := by
  obtain ⟨id, here, known⟩ := known
  refine ⟨id, ?_, dropped.knownAfter known differs⟩
  rw [here?, dropped.cursor]
  exact here

theorem reads (dropped : Dropped now next name) {value : Value} (reads : now.Reads value)
    (differs : value.regName? ≠ some name) : next.Reads value := by
  unfold Reads at *
  rw [dropped.params]
  cases value <;> simp only [Value.Readable] at reads ⊢
  · exact dropped.known reads fun same => differs (congrArg some same)
  · exact reads

theorem unused (dropped : Dropped now next name) {other : ValueName}
    (unused : now.body.Unused other) : next.body.Unused other := by
  refine ⟨fun id inst inside => unused.code id inst ((dropped.member id inst).1 inside).1,
    fun id terminator closed => ?_⟩
  rw [dropped.exit] at closed
  exact unused.exits id terminator closed

/-- Whoever started before the register was set does not miss it. -/
theorem since (dropped : Dropped now next name) (valid : base.Valid) (since : Since base now)
    (new : ¬ base.body.Names name) : Since base next := by
  have differs : ∀ {reg : Register}, base.body.Present reg → reg.1 ≠ name := by
    rintro ⟨_, ty⟩ present rfl
    exact new ⟨ty, present⟩
  have opened : ∀ other, next.Open other ↔ now.Open other := fun other => by
    rw [Open, Has, dropped.blocks, dropped.exit, Open, Has]
  refine ⟨⟨dropped.current.trans since.current, dropped.title.trans since.name,
    ⟨dropped.params.trans since.within.params, fun id inst member => ?_⟩, fun id found => ?_,
    fun id found reg => ?_, fun id found free inst member => ?_, fun name member => ?_,
    fun other idle => ?_, fun func current => ?_⟩, fun id => ?_, fun live reg known => ?_⟩
  · refine (dropped.member id inst).2 ⟨since.within.code id inst member, ?_⟩
    exact @differs inst.register ⟨id, inst, member, rfl⟩
  · rw [Has, dropped.blocks]
    exact since.blocks id found
  · rw [dropped.avail, since.avail id found]
    refine ⟨And.left, fun available => ⟨available, differs ?_⟩⟩
    exact valid.certified.present_of_known (Or.inl (Or.inl available))
  · exact since.phiFree id found free inst ((dropped.member id inst).1 member).1
  · rw [dropped.pinned]
    exact since.pinned name member
  · have still := since.idle other idle
    obtain ⟨ty, aggregate, id, defined⟩ := still.present
    refine ⟨⟨ty, aggregate, id, dropped.defines defined fun same => new ?_⟩, ?_,
      dropped.unused still.unused⟩
    · exact same ▸ idle.names
    · rw [dropped.pinned]
      exact still.unpinned
  · exact (since.beside func current).trans (dropped.beside func (since.current.trans current))
  · rw [Waiting, opened, here?, dropped.cursor]
    exact since.waiting id
  · rw [Live, dropped.cursor] at live
    exact dropped.known (since.here live reg known) (differs (valid.present_of_known known))

end Dropped

section Without

variable {name : ValueName} {position : Nat} {origin : Value}

theorem without_edited (current : now.builder.current = some func) :
    Edited now (now.without func id position name) fun function =>
      function.modifyBlock id fun found => found.remove position :=
  ⟨rfl, fun func current' => by cases current.symm.trans current'; rfl⟩

/-- Where a load that was found stands in its block. -/
theorem exists_load {insts : List Instruction}
    (found : Builder.findLoad? name insts.reverse = some (position, origin)) :
    ∃ before ty after, insts = before ++ ⟨name, ty, .load origin⟩ :: after ∧
      before.length = position := by
  obtain ⟨later, ty, earlier, split, length, _⟩ := Builder.findLoad?_spec found
  refine ⟨earlier.reverse, ty, later.reverse, ?_, by rw [List.length_reverse, length]⟩
  rw [← List.reverse_reverse insts, split]
  simp

variable (valid : now.Valid) (current : now.builder.current = some func) (opened : now.Open id)
  (found : Builder.findLoad? name (now.body.code id).reverse = some (position, origin))

include valid found

/-- Nothing but the load has its name. -/
theorem load_unique {other : BlockId} {inst : Instruction} (member : inst ∈ now.body.code other)
    (same : inst.name = name) : other = id ∧ ∃ ty, inst = ⟨name, ty, .load origin⟩ := by
  obtain ⟨before, ty, after, layout, _⟩ := exists_load found
  have loaded : ⟨name, ty, .load origin⟩ ∈ now.body.code id := by
    rw [layout]
    exact List.mem_append_right _ List.mem_cons_self
  obtain rfl := valid.certified.apart other id inst member _ loaded same
  exact ⟨rfl, ty, List.inj_on_of_nodup_map (valid.certified.distinct _) member loaded same⟩

include current opened

theorem without_code (other : BlockId) : (now.without func id position name).body.code other =
    (now.body.code other).filter fun inst => inst.name ≠ name := by
  obtain ⟨block, stored⟩ := Option.isSome_iff_exists.1 opened.1
  obtain ⟨before, ty, after, layout, rfl⟩ := exists_load found
  rw [(without_edited current).body valid, Function.code_remove stored]
  split_ifs with same
  · rw [same, layout]
    exact eraseIdx_eq_filter (layout ▸ valid.certified.distinct id)
  · refine (List.filter_eq_self.2 fun inst member => ?_).symm
    rw [decide_eq_true_iff]
    exact fun named => same (load_unique valid found member named).1

omit current opened in
/-- The load is no slot, so the slots stay at the front. -/
theorem slots_kept {second : Function} (code : ∀ other, second.code other =
      (now.body.code other).filter fun inst => inst.name ≠ name) :
    second.BeginsWithSlots now.builder.slotCount := by
  refine valid.slots.filter (fun inst inside slot => ?_) (code Function.entryId)
  rw [decide_eq_true_iff]
  intro same
  obtain ⟨_, _, rfl⟩ := load_unique valid found inside same
  cases slot

/-- An idle load can be dropped. -/
theorem without_dropped (idle : now.Idle name) :
    (now.without func id position name).Valid ∧
      Dropped now (now.without func id position name) name := by
  have edited := @without_edited now func id name position current
  have body := edited.body valid
  have code := without_code valid current opened found
  have exit : ∀ other, (now.without func id position name).body.exit? other =
      now.body.exit? other := by
    rw [body]
    exact fun other => Function.exit?_modifyBlock_of_same _ _ _ fun _ => rfl
  have blocks : ∀ other, ((now.without func id position name).body.block? other).isSome =
      (now.body.block? other).isSome := by
    rw [body]
    exact fun other => Function.isSome_block?_modifyBlock _ _ _ _
  have params : (now.without func id position name).body.params = now.body.params := by
    rw [body]
    rfl
  have member : ∀ other inst, inst ∈ (now.without func id position name).body.code other ↔
      inst ∈ now.body.code other ∧ inst.name ≠ name := fun other inst => by
    rw [code, List.mem_filter, decide_eq_true_iff]
  have names : ∀ {other}, (now.without func id position name).body.Names other →
      now.body.Names other := by
    rintro other ⟨ty, id, inst, inside, same⟩
    exact ⟨ty, id, inst, ((member id inst).1 inside).1, same⟩
  refine ⟨edited.valid valid (fun cursor positioned => ?_)
    (valid.labelled.modifyBlock _ (fun _ => rfl) fun _ => rfl)
    (body ▸ valid.certified.drop params code exit blocks idle.unused)
    (body ▸ slots_kept valid found code)
    (fun number named => valid.temps number (names (body ▸ named)))
    (fun text named => valid.names text (names (body ▸ named))),
    ⟨rfl, rfl, rfl, by rw [body]; rfl, params, fun _ _ => Iff.rfl, member, exit, blocks,
      fun func => edited.beside⟩⟩
  obtain ⟨inside, unclosed⟩ := valid.cursor cursor positioned
  refine ⟨inside, ?_⟩
  rw [Open, Has, blocks, exit]
  exact unclosed

end Without

/-! ### Stores -/

/-- The copy routine can be called from anywhere. -/
theorem routineDeclared (valid : now.Valid) (live : now.Live) :
    Ensures Build.copyRoutine now.builder fun value after => ∃ next : Moment,
      next.builder = after ∧ next.Valid ∧ Since now next ∧ next.Live ∧ next.Address value := by
  unfold Build.copyRoutine
  rw [ensures_bind, ensures_get, ensures_bind]
  refine (ensures_declareFunction _ _ _).mono ?_
  rintro func _ ⟨target, declares, rfl, function, stored, _⟩
  obtain ⟨valid', since⟩ := declared valid declares
  rw [ensures_ask (Module.functionRef_of_found stored)]
  exact ⟨now.retarget target, rfl, valid', since, live, trivial, rfl⟩

theorem Usable.later {middle next : Moment} {value : Value} (usable : Usable base middle value)
    (kept : ∀ other, middle.Reads other → next.Reads other) : Usable base next value :=
  ⟨kept value usable.reads, usable.own⟩

/-- A copy is emitted from an address that the emitter may read to any other one. -/
theorem copied {address origin : Value} {ty : Ty} (since : Since base now) (valid : now.Valid)
    (live : now.Live) (destination : now.Address address) (source : Usable base now origin) :
    Ensures (Build.copyAggregate address origin ty) now.builder fun _ after => ∃ next : Moment,
      next.builder = after ∧ next.Valid ∧ Since base next ∧ next.Live ∧
        ∀ other, now.Reads other → next.Reads other := by
  unfold Build.copyAggregate
  rw [ensures_bind]
  refine ensures_measure fun size _ => ?_
  rw [ensures_bind]
  refine (routineDeclared valid live).mono ?_
  rintro routine _ ⟨second, rfl, valid₂, since₂, live₂, callee⟩
  have reads₂ := fun other (reads : now.Reads other) =>
    Reads.mono reads since₂.within.params (since₂.here live₂)
  have destination₂ := destination.mono since₂.toGrows (since₂.here live₂)
  rw [ensures_bind]
  refine Ensures.mono (emitted (.refl second) valid₂ live₂ rfl (List.forall_mem_singleton.2
    (destination₂.usable valid₂ (.refl second)))) ?_
  rintro target _ ⟨third, rfl, first⟩
  have since₃ : Since base third := (since.trans live since₂).trans live₂ first.since
  rw [ensures_bind]
  refine Ensures.mono (emitted since₃ first.valid first.live rfl (List.forall_mem_singleton.2
    ((source.later reads₂).later first.kept))) ?_
  rintro start _ ⟨fourth, rfl, second'⟩
  have arrival : fourth.Address target :=
    ⟨second'.kept target first.produced.reads, first.typed ▸ rfl⟩
  have departure : fourth.Address start := second'.address rfl
  have routine : fourth.Address routine :=
    ⟨second'.kept _ (first.kept _ callee.reads), callee.scalar⟩
  rw [ensures_bind]
  refine Ensures.mono (emitted second'.since second'.valid second'.live rfl ?_) ?_
  · intro value operand
    simp only [Operation.operands, List.mem_cons, List.not_mem_nil, or_false] at operand
    rcases operand with rfl | rfl | rfl | rfl
    · exact routine.usable second'.valid second'.since.toGrows
    · exact arrival.usable second'.valid second'.since.toGrows
    · exact departure.usable second'.valid second'.since.toGrows
    · exact .of_scalar second'.valid second'.since.toGrows trivial rfl
  · rintro _ _ ⟨fifth, rfl, last⟩
    exact ⟨fifth, rfl, last.valid, last.since, last.live, fun other reads =>
      last.kept _ (second'.kept _ (first.kept _ (reads₂ other reads)))⟩

/-- When a store becomes a copy, in the function being built. -/
theorem copySource?_spec {value origin : Value} {cursor : Cursor} {position : Nat}
    (valid : now.Valid)
    (source : now.builder.copySource? value = .ok (some (cursor, position, origin))) :
    ∃ name ty, value = .reg name ty ∧ ty.isAggregate = true ∧ name ∉ now.builder.pinned ∧
      now.builder.cursor = some cursor ∧
      Builder.findLoad? name (now.body.code cursor.block).reverse = some (position, origin) := by
  obtain ⟨name, ty, function, block, rfl, aggregate, unpinned, positioned, stored, found, loaded⟩ :=
    Builder.copySource?_spec source
  have body : now.body = function := body_eq (valid.cursor cursor positioned).1 stored
  refine ⟨name, ty, rfl, aggregate, unpinned, positioned, ?_⟩
  rw [Function.code_of_block? (body ▸ found)]
  exact loaded

/-- Dropping an instruction of an open block. -/
theorem removed {position : Nat} (name : ValueName) (valid : now.Valid)
    (current : now.builder.current = some func) (opened : now.Open id) :
    Ensures (Build.removeAt func id position) now.builder fun _ after =>
      after = (now.without func id position name).builder := by
  obtain ⟨block, found⟩ := Option.isSome_iff_exists.1 opened.1
  have got : now.builder.target.getBlock func id = .ok block := by
    unfold Module.getBlock
    rw [valid.getFunction current]
    change now.body.getBlock id = _
    rw [Function.getBlock, found]
  unfold Build.removeAt
  rw [ensures_bind, ensures_ask got, ensures_bind, ensures_change, ensures_pure]
  rfl

/-- The address of a load that was found can still be read at the end of the block. -/
theorem load_reads {name : ValueName} {cursor : Cursor} {position : Nat} {origin : Value}
    (valid : now.Valid) (positioned : now.builder.cursor = some cursor)
    (loaded : Builder.findLoad? name (now.body.code cursor.block).reverse =
      some (position, origin)) :
    now.Reads origin ∧ ∃ inst ∈ now.body.code cursor.block, origin ∈ inst.op.operands := by
  obtain ⟨later, ty, earlier, split, _, _⟩ := Builder.findLoad?_spec loaded
  have layout : now.body.code cursor.block =
      earlier.reverse ++ ⟨name, ty, .load origin⟩ :: later.reverse := by
    rw [← List.reverse_reverse (now.body.code cursor.block), split]
    simp
  refine ⟨?_, ⟨name, ty, .load origin⟩, ?_, List.mem_singleton.2 rfl⟩
  · have ordered := valid.certified.ordered cursor.block
    rw [layout] at ordered
    refine Value.Readable.mono (ordered.readable rfl (List.mem_singleton.2 rfl)) fun reg known => ?_
    refine ⟨cursor.block, by rw [here?, positioned]; rfl, known.imp_right ?_⟩
    rintro ⟨inst, member, same⟩
    exact ⟨inst, by rw [layout]; exact List.mem_append_left _ member, same⟩
  · rw [layout]
    exact List.mem_append_right _ List.mem_cons_self

/-- What an instruction reads is not idle. -/
theorem idle_unread {name : ValueName} {value : Value} (idle : now.Idle name)
    (used : ∃ inst ∈ now.body.code id, value ∈ inst.op.operands) : value.regName? ≠ some name := by
  obtain ⟨inst, member, operand⟩ := used
  have unread := idle.unused.code id inst member
  simp only [Instruction.uses, List.any_eq_false, beq_iff_eq] at unread
  exact unread value operand

/-- A value may be stored by whoever produced it; addresses stay what they are. -/
theorem stored {address value : Value} (start : base.Valid) (since : Since base now)
    (valid : now.Valid) (live : now.Live) (destination : now.Address address)
    (produced : Produced base now value) :
    Ensures (Build.store address value) now.builder fun _ after => ∃ next : Moment,
      next.builder = after ∧ next.Valid ∧ Since base next ∧ next.Live ∧
        ∀ other, now.Address other → next.Address other := by
  unfold Build.store
  rw [ensures_bind]
  refine ensures_measure fun found source => ?_
  cases found with
  | none =>
    simp only
    rw [ensures_bind]
    refine Ensures.mono (emitted since valid live rfl ?_) ?_
    · intro operand member
      simp only [Operation.operands, List.mem_cons, List.not_mem_nil, or_false] at member
      rcases member with rfl | rfl
      · exact destination.usable valid since.toGrows
      · exact produced.usable valid since.toGrows
    · rintro _ _ ⟨next, rfl, emitted⟩
      exact ⟨next, rfl, emitted.valid, emitted.since, emitted.live, fun other old =>
        ⟨emitted.kept other old.reads, old.scalar⟩⟩
  | some found =>
    obtain ⟨cursor, position, origin⟩ := found
    obtain ⟨name, ty, rfl, aggregate, unpinned, positioned, loaded⟩ := copySource?_spec valid source
    obtain ⟨current, opened⟩ := valid.cursor cursor positioned
    obtain ⟨idle, new⟩ := (produced.spare name ty rfl aggregate).resolve_left unpinned
    obtain ⟨valid', dropped⟩ := without_dropped valid current opened loaded idle
    have since' := dropped.since start since new
    simp only
    rw [ensures_bind]
    refine Ensures.mono (removed name valid current opened) ?_
    rintro _ _ rfl
    have kept : ∀ other, now.Address other →
        (now.without cursor.func cursor.block position name).Address other := fun other old =>
      ⟨dropped.reads old.reads fun named =>
        (old.usable valid (.refl now)).own name named idle, old.scalar⟩
    refine Ensures.mono (copied since' valid' (by rw [Live, dropped.cursor]; exact live)
      (kept address destination) ?_) ?_
    · obtain ⟨reads, used⟩ := load_reads valid positioned loaded
      refine ⟨dropped.reads reads fun named => ?_, fun other named quiet => ?_⟩
      · exact idle_unread idle used named
      · exact idle_unread (since.idle other quiet) used named
    · rintro _ _ ⟨next, rfl, valid'', since'', live'', kept'⟩
      exact ⟨next, rfl, valid'', since'', live'', fun other old =>
        ⟨kept' other (kept other old).reads, old.scalar⟩⟩

end Moment

end TreeLowering.Lowering
