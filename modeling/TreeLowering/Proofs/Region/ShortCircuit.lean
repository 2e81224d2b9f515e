/-
This file proves that the right operand of a short-circuit operator is confined. Control comes to it
by one edge, from the end of the left operand, and whatever lowering it emits stands behind that edge:
in the block it starts in, or in blocks of its own, which can only be reached through that block.
Nothing that is lowered later adds a way in.
-/

import TreeLowering.Proofs.Calls.Obey
import TreeLowering.Proofs.Region.Fork
import TreeLowering.Proofs.Region.Law
import TreeLowering.Proofs.Ssa.Form

namespace TreeLowering.Ir

/-- Where control comes to a region by one block only, that block is on every way there. -/
theorem Function.dominates_of_entered {function : Function} {gate : BlockId} {inside : BlockId → Prop}
    (entry : inside Function.entryId → Function.entryId = gate)
    (entered : ∀ source target, function.Precedes source target → inside target → target ≠ gate →
      inside source) {id : BlockId} (member : inside id) : function.Dominates gate id := by
  intro passed trail
  induction trail with
  | start =>
    rw [entry member]
    exact List.mem_cons_self
  | @step passed source target _ edge inductionHypothesis =>
    by_cases same : target = gate
    · rw [same]
      exact List.mem_cons_self
    · exact List.mem_cons_of_mem _ (inductionHypothesis (entered source target edge member same))

end TreeLowering.Ir

namespace TreeLowering.Lowering

open TreeLowering.Ir TreeLowering.Tree Moment

/-! ### The region of a part -/

/-- The block is the one that a part starts in, or one that is made while the part is lowered. -/
def InRegion (gate : BlockId) (start behind : Builder) (id : BlockId) : Prop :=
  id = gate ∨ ¬ start.Has id ∧ behind.Has id

/-- The instruction is emitted between two points of a run: its name is handed out between them. -/
def Builder.Emitted (start behind : Builder) (inst : Instruction) : Prop :=
  ¬ start.Spent inst.name ∧ behind.Spent inst.name

/-- In the function, a part that was lowered from `start` to `behind` is confined to its region, which
control enters through its first block. -/
structure Confined (function : Function) (gate : BlockId) (start behind : Builder) : Prop where
  /-- Whatever the part adds is emitted for it. -/
  added : ∀ id inst, inst ∈ behind.body.code id → inst ∉ start.body.code id →
    start.Emitted behind inst
  /-- Whatever is emitted for the part and stays is in the region, unless it is a slot. -/
  code : ∀ id, ∀ inst ∈ function.code id, start.Emitted behind inst → inst.op.isAlloca = false →
    InRegion gate start behind id
  /-- Every way from the entry to the region leads through its first block. -/
  entered : ∀ id, InRegion gate start behind id → function.Dominates gate id

section Confined

variable {now later : Moment} {gate : BlockId} {loop : Option LoopTargets} {last : Builder}

/-- Every instruction of a valid moment has a name that was handed out. -/
theorem Moment.Valid.spent (valid : now.Valid) {id : BlockId} {inst : Instruction}
    (member : inst ∈ now.body.code id) : now.builder.Spent inst.name := by
  have named : now.body.Names inst.name := ⟨inst.ty, id, inst, member, rfl⟩
  cases name : inst.name with
  | temp number => exact valid.temps number (name ▸ named)
  | named text => exact valid.names text (name ▸ named)

/-- In an old block other than the first one, what is new is a slot. -/
theorem Continues.slot {id : BlockId} {before after : Block} {inst : Instruction}
    (continues : Continues id before after []) (member : inst ∈ after.insts.toList)
    (new : inst ∉ before.insts.toList) : inst.op.isAlloca = true := by
  obtain ⟨front, slots, back, first, second, allocas, _⟩ := continues.code
  rw [first, List.mem_append, not_or] at new
  rw [second, List.append_nil, List.mem_append] at member
  exact allocas inst (member.resolve_right new.2)

/-- A block outside of the region was there before, and stays as it is but for slots. -/
theorem Region.old {id : BlockId} {after : Block}
    (region : Region gate loop now.body later.body) (found : later.body.block? id = some after)
    (outside : ¬ InRegion gate now.builder later.builder id) :
    ∃ before, now.body.block? id = some before ∧ Continues id before after [] ∧
      after.terminator = before.terminator := by
  rw [InRegion, not_or, not_and] at outside
  have old : now.Has id := by
    by_contra fresh
    exact outside.2 fresh (show (later.body.block? id).isSome = true by rw [found]; rfl)
  obtain ⟨before, known⟩ := Option.isSome_iff_exists.1 old
  obtain ⟨after', same, kept⟩ := region.others id before known outside.1
  cases found.symm.trans same
  exact ⟨before, known, kept⟩

/-- What a part leaves behind when it keeps to its region stays confined. -/
theorem confined_of_region (valid : now.Valid) (valid' : later.Valid)
    (region : Region gate loop now.body later.body)
    (own : Builder.Spares now.builder.Has now.builder later.builder)
    (spares : Builder.Spares now.builder.Has later.builder last) :
    Confined last.body gate now.builder later.builder := by
  refine ⟨fun id inst member new => ⟨fun spent => new (own.code id inst spent member),
    valid'.spent member⟩, fun id inst member emitted plain => ?_, fun id inside => ?_⟩
  · have inner := spares.code id inst emitted.2 member
    by_contra outside
    cases found : later.body.block? id with
    | none =>
      rw [Function.code, show later.builder.body.block? id = none from found] at inner
      cases inner
    | some after =>
      obtain ⟨before, known, continues, _⟩ := region.old found outside
      replace inner : inst ∈ after.insts.toList := Function.code_of_block? found ▸ inner
      have slot := continues.slot inner fun member =>
        emitted.1 (valid.spent (Function.code_of_block? known ▸ member))
      rw [plain] at slot
      cases slot
  · refine Function.dominates_of_entered (fun entry => ?_)
      (fun source target edge inside differs => ?_) inside
    · refine entry.resolve_right fun made => made.1 ?_
      obtain ⟨block, known, _⟩ := valid.labelled.entry
      show (now.body.block? Function.entryId).isSome = true
      rw [known]
      rfl
    · obtain ⟨new, has⟩ := inside.resolve_left differs
      obtain ⟨terminator, exit, successor⟩ := spares.edges source target has new edge
      by_contra outside
      -- an old block keeps its exit, which cannot lead to a new block
      obtain ⟨after, found, closed⟩ := Option.bind_eq_some_iff.1 exit
      obtain ⟨before, known, _, kept⟩ := region.old found outside
      have exit' : now.body.exit? source = some terminator :=
        (Function.exit?_of_block? known).trans (kept.symm.trans closed)
      exact new (valid.certified.inner source target ⟨terminator, exit', successor⟩).2

end Confined

/-! ### The right operand -/

section ShortCircuit

variable {source : Source} {options : Options} {op : BinaryOp} {expr left right : ExprId}
  {span : Span} {ty : TypeId} {taken : List Name} {fuel : Nat} {before middle after : Context}
  {test value : Value}

theorem lowerNode_shortCircuit {walk : Walk} (live : before.Live)
    (stored : walk.program.arena.get? expr = some ⟨.binary op left right, span, ty⟩)
    (short : op.isShortCircuit = true) : lowerNode walk expr before =
      walk.withValue left (fun test => partWays (op == .and) test span >>= fun ways =>
        walk.expr right >>= meetWays ways) before := by
  rw [lowerNode_binary live stored, lowerBinary, if_pos short, lowerShortCircuit_eq]

/-- Where the ways have parted, the call for the right operand is made. -/
theorem directly_right {ways : Ways} {start : Context} (live : before.Live)
    (stored : source.program.arena.get? expr = some ⟨.binary op left right, span, ty⟩)
    (short : op.isShortCircuit = true)
    (lowered : lowerWithin source taken fuel left before = .ok test middle) (reached : middle.Live)
    (parts : partWays (op == .and) test span middle = .ok ways start)
    (has : start.builder.Has ways.right) (new : ¬ before.builder.Has ways.right) :
    Directly source ⟨⟨.value, expr, before⟩, taken, fuel + 1⟩ ⟨⟨.value, right, start⟩, taken, fuel⟩ := by
  refine ⟨rfl, rfl, fun alarm => ⟨start, ?_⟩⟩
  have plain : ((levels source taken fuel).refusing ⟨.value, right, start⟩ alarm).expr left before =
      .ok test middle := by
    refine (if_neg fun same => ?_).trans lowered
    rw [Request.mk.injEq] at same
    exact new (same.2.2 ▸ has)
  refine (lowerNode_shortCircuit live stored short).trans ?_
  rw [Walk.withValue, run_thenLive plain reached, run_bind parts]
  exact run_bind_error ((levels source taken fuel).refused_self alarm .value right start)

/-- From where the ways part to behind the operator, control is led to the block where they meet, and
to what was there before. -/
theorem spares_of_parts {func : FuncId} {ways : Ways} {start behind : Context}
    (poised : Poised func before.builder.Has before.env.frames middle)
    (parts : partWays (op == .and) test span middle = .ok ways start)
    (lowered : lowerWithin source taken fuel right start = .ok value behind)
    (inside : ways.func = func) {result : Value}
    (meets : meetWays ways value behind = .ok result after) :
    Poised func before.builder.Has before.env.frames start ∧
      Builder.Spares (fun id => before.builder.Has id ∨ id = ways.merge) start.builder
        after.builder := by
  obtain ⟨same, rules, _⟩ := ((Regime.between.steady source before.builder.Has
    middle.builder).partWays (op == .and) test span poised.rules).of_ok parts
  have poised' := poised.later (same.frames.trans poised.around) rules.holds
  obtain ⟨frames, spares⟩ := orderly_levels source taken fuel poised' .value right _ _ lowered
  have poised'' := poised'.later frames spares
  have steady := Regime.between.steady source (fun id => before.builder.Has id ∨ id = ways.merge)
    behind.builder
  have loop : LoopIn (fun id => behind.builder.Has id → before.builder.Has id ∨ id = ways.merge)
      behind.env.frames :=
    (poised''.around ▸ poised''.loop).mono fun _ waits _ => .inl waits
  obtain ⟨_, rules', _⟩ := (steady.meetWays (inside ▸ poised''.here) trivial (fun _ => .inr rfl) value
    ⟨.refl poised''.work, loop⟩).of_ok meets
  exact ⟨poised', (spares.mono fun _ _ => .inl).trans rules'.holds fun _ _ => id⟩

/-- The parts of a call that returns, and how the ways have parted in it. -/
theorem parted_of_made (made : MadeBy source options ⟨⟨.value, expr, before⟩, taken, fuel + 1⟩)
    (live : before.Live)
    (stored : source.program.arena.get? expr = some ⟨.binary op left right, span, ty⟩)
    (short : op.isShortCircuit = true)
    (lowered : lowerWithin source taken fuel left before = .ok test middle)
    (reached : middle.Live) {result : Value}
    (returned : lowerWithin source taken (fuel + 1) expr before = .ok result after) :
    ∃ ways start value behind fork, partWays (op == .and) test span middle = .ok ways start ∧
      lowerWithin source taken fuel right start = .ok value behind ∧
      meetWays ways value behind = .ok result after ∧
      Parted (op == .and) test fork ways middle.builder start.builder ∧
      ¬ before.builder.Has ways.right := by
  obtain ⟨now, standing⟩ := standing_of_made made returned
  obtain ⟨next, same, valid, since, kept, produced⟩ :=
    ((within_sound source taken fuel).expr standing left).of_ok lowered
  have alive : next.Live := by
    rw [Moment.Live, same]
    exact reached
  have standing' : Standing now next before.env middle :=
    ⟨same.symm, kept, standing.valid, standing.bound, valid, alive, since⟩
  rw [lowerWithin, lowerNode_shortCircuit live stored short, Walk.withValue,
    run_thenLive lowered reached] at returned
  obtain ⟨ways, start, parts, rest⟩ := run_bind_ok returned
  obtain ⟨value, behind, lowered', meets⟩ := run_bind_ok rest
  obtain ⟨fork, parted, new⟩ := standing'.partWays (produced alive) parts
  refine ⟨ways, start, value, behind, fork, parts, lowered', meets, parted, fun old => new ?_⟩
  rw [standing.building] at old
  exact old

/-- What is lowered for the right operand keeps to its region from its beginning on. -/
theorem confined_of_made {func : FuncId} {start behind : Context} {gate : BlockId} {last : Builder}
    (made : MadeBy source options ⟨⟨.value, right, start⟩, taken, fuel⟩)
    (ready : Request.Ready ⟨.value, right, start⟩ func)
    (lowered : lowerWithin source taken fuel right start = .ok value behind)
    (positioned : start.builder.cursor = some ⟨func, gate⟩)
    (spares : Builder.Spares start.builder.Has behind.builder last) :
    Confined last.body gate start.builder behind.builder := by
  obtain ⟨now, standing⟩ := standing_of_made made lowered
  obtain ⟨later, same, valid, _⟩ :=
    ((within_sound source taken fuel).expr standing right).of_ok lowered
  obtain ⟨_, old, new, found, found', region, _⟩ :=
    regionLaw_holdsStanding source taken fuel right standing lowered ⟨func, gate⟩ positioned
  obtain ⟨_, own⟩ := orderly_levels source taken fuel ready .value right _ _ lowered
  cases found.symm.trans (ready.work.found ready.here)
  cases found'.symm.trans (own.work.found (own.current.trans ready.here))
  rw [standing.building, ← same] at region own spares ⊢
  exact confined_of_region standing.valid valid region own spares

/-- In an accepted program, a short-circuit operator that control comes to, and whose left operand
control gets behind, leads to its right operand by one edge only, the true one for `&&` and the false
one for `||`. What is emitted for the right operand, except for stack slots, is in the block at the
end of that edge or in blocks made for the operand, and all of these are reached through that block
only. -/
theorem lowerProgram_shortCircuit {target : Module}
    (accepted : lowerProgram source options = .ok target)
    (made : MadeBy source options ⟨⟨.value, expr, before⟩, taken, fuel + 1⟩) (live : before.Live)
    (stored : source.program.arena.get? expr = some ⟨.binary op left right, span, ty⟩)
    (short : op.isShortCircuit = true)
    (lowered : lowerWithin source taken fuel left before = .ok test middle)
    (reached : middle.Live) :
    ∃ fork function gate merge start value behind,
      middle.builder.cursor = some fork ∧ target.function? fork.func = some function ∧
      Directly source ⟨⟨.value, expr, before⟩, taken, fuel + 1⟩
        ⟨⟨.value, right, start⟩, taken, fuel⟩ ∧
      start.builder.cursor = some ⟨fork.func, gate⟩ ∧
      lowerWithin source taken fuel right start = .ok value behind ∧
      function.exit? fork.block = some (choice (op == .and) test gate merge) ∧ gate ≠ merge ∧
      (∀ source, function.Precedes source gate ↔ source = fork.block) ∧
      Confined function gate start.builder behind.builder := by
  cases whole : lowerWithin source taken (fuel + 1) expr before with
  | error cause after =>
    cases (lowerProgram_of_failed made whole).symm.trans accepted
  | ok result after =>
  obtain ⟨func, final, ready, kept, later⟩ := spared_of_made accepted made whole
  obtain ⟨ways, start, value, behind, fork, parts, lowered', meets, parted, new⟩ :=
    parted_of_made made live stored short lowered reached whole
  have directly := directly_right live stored short lowered reached parts parted.has new
  obtain ⟨frames, spares⟩ := orderly_levels source taken fuel ready .value left _ _ lowered
  have poised := ready.later frames spares
  obtain rfl : fork.func = func :=
    Option.some.inj ((poised.work.cursor fork parted.start).1.symm.trans poised.here)
  obtain ⟨poised', spares'⟩ := spares_of_parts poised parts lowered' parted.func meets
  -- from where the ways part to the end of the function
  have along := spares'.trans later fun _ _ => .inl
  -- from behind the right operand to the end of the function
  obtain ⟨func', final', ready', kept', later'⟩ :=
    spared_of_made accepted (made.part directly) lowered'
  obtain rfl : func' = fork.func := Option.some.inj (ready'.here.symm.trans poised'.here)
  have same : final'.body = final.body := Option.some.inj (kept'.symm.trans kept)
  refine ⟨fork, final.body, ways.right, ways.merge, start, value, behind, parted.start, kept,
    directly, parted.cursor, lowered', along.exits _ _ parted.exit, parted.differs,
    fun source' => ⟨fun edge => ?_, ?_⟩,
    same ▸ confined_of_made (made.part directly) ready' lowered' parted.cursor later'⟩
  · refine (parted.entered source').1 (along.edges source' _ parted.has ?_ edge)
    exact not_or.2 ⟨new, parted.differs⟩
  · rintro rfl
    exact ⟨_, along.exits _ _ parted.exit, mem_choice.2 (.inl rfl)⟩

end ShortCircuit

/-! ### An operator in an operator -/

/-- `fn both() -> bool { true && (false || true) }` -/
def both : Source where
  names := (NameTable.initial.intern "both").2
  program :=
    { types := .initial
      scopes := .initial
      arena := ⟨#[⟨.bool true, .nowhere, .bool⟩, ⟨.bool false, .nowhere, .bool⟩,
        ⟨.bool true, .nowhere, .bool⟩, ⟨.binary .or ⟨1⟩ ⟨2⟩, .nowhere, .bool⟩,
        ⟨.binary .and ⟨0⟩ ⟨3⟩, .nowhere, .bool⟩]⟩
      items := [.function
        { name := ⟨1⟩
          link := ⟨1⟩
          params := []
          ret := .bool
          body := some ⟨4⟩
          scope := .root
          span := .nowhere }] }

/-- The right operand of the outer operator is entered on the true edge only, and it is confined. -/
theorem both_shortCircuit : ∃ target before taken fuel test middle, ∃ fork : Cursor,
    ∃ function gate merge start behind, lowerProgram both .standard = .ok target ∧
      MadeBy both .standard ⟨⟨.value, ⟨4⟩, before⟩, taken, fuel + 1⟩ ∧ before.Live ∧
      lowerWithin both taken fuel ⟨0⟩ before = .ok test middle ∧ middle.Live ∧
      target.function? fork.func = some function ∧
      function.exit? fork.block = some (.branch test gate merge) ∧
      (∀ source, function.Precedes source gate ↔ source = fork.block) ∧
      Confined function gate start behind := by
  have accepted : ∃ target, lowerProgram both .standard = .ok target := ⟨_, by cbv⟩
  obtain ⟨target, accepted⟩ := accepted
  obtain ⟨before, taken, fuel, value, after, made, live, returned⟩ :=
    madeBy_of_accepted accepted List.mem_cons_self rfl
  have calls : EveryCall both .standard fun expr _ _ after =>
      expr = ⟨4⟩ → after.builder.cursor.isSome = true := by
    intro alarm
    cbv
  have passed : after.Live := obeys_of_made calls made returned rfl
  rw [lowerWithin, lowerNode_shortCircuit live rfl rfl] at returned
  obtain ⟨test, middle, lowered, reached, _⟩ := thenLive_live returned passed
  obtain ⟨fork, function, gate, merge, start, _, behind, _, found, _, _, _, exit, _, entered,
    confined⟩ := lowerProgram_shortCircuit accepted made live rfl rfl lowered reached
  exact ⟨target, before, taken, fuel, test, middle, fork, function, gate, merge, start.builder,
    behind.builder, accepted, made, live, lowered, reached, found, exit, entered, confined⟩

end TreeLowering.Lowering
