/-
This file proves the region law: lowering an expression from an open block works in that block and
in blocks of its own. Whatever else was there stays as it is, up to stack slots that are added
behind those at the front of the entry block; control leaves the region only through its end, by a
return, or to the loop around the expression; and no block is left open but the one the cursor is
in. The law holds of every call that is made while a program is lowered.
-/

import TreeLowering.Proofs.Calls.Watch
import TreeLowering.Proofs.Region.Reach

namespace TreeLowering.Lowering

open TreeLowering.Ir TreeLowering.Tree Moment

/-! ### The law -/

/-- The second block is the first one with slots added behind those at its front, which only an
entry block has, and with more instructions at its end. -/
structure Continues (id : BlockId) (first second : Block) (more : List Instruction) : Prop where
  title : second.id = first.id ∧ second.label = first.label
  code : ∃ front slots back, first.insts.toList = front ++ back ∧
    second.insts.toList = front ++ slots ++ back ++ more ∧
    (∀ inst ∈ front ++ slots, inst.op.isAlloca = true) ∧ (id ≠ Function.entryId → slots = [])

/-- What the lowering of an expression that starts in block `start` of the function `old`, inside
the loop `loop`, may make of the function. -/
structure Region (start : BlockId) (loop : Option LoopTargets) (old new : Function) : Prop where
  /-- The block at the start is open, and goes on behind its earlier instructions. -/
  first : ∃ before after more, old.block? start = some before ∧ before.terminator = none ∧
    new.block? start = some after ∧ Continues start before after more
  /-- All other blocks stay as they are. -/
  others : ∀ id before, old.block? id = some before → id ≠ start → ∃ after,
    new.block? id = some after ∧ Continues id before after [] ∧
      after.terminator = before.terminator
  /-- A new jump leads to a new block or to the loop around the expression. -/
  jumps : ∀ id after terminator, id = start ∨ old.block? id = none → new.block? id = some after →
    after.terminator = some terminator → ∀ target ∈ terminator.successors,
      (old.block? target = none ∧ (new.block? target).isSome = true) ∨
        ∃ targets, loop = some targets ∧
          (target = targets.breakTo ∨ target = targets.continueTo)

/-- Where the lowering of an expression that starts in block `start` leaves the cursor. -/
structure Landing (func : FuncId) (start : BlockId) (old new : Function) (value : Value)
    (cursor : Option Cursor) : Prop where
  /-- Either control does not get behind the expression, or it goes on in an open block. -/
  ending : cursor = none ∧ value = .undef .never ∨ ∃ id after, cursor = some ⟨func, id⟩ ∧
    (id = start ∨ old.block? id = none) ∧ new.block? id = some after ∧ after.terminator = none
  /-- No other block of the region is open. -/
  closed : ∀ id after, id = start ∨ old.block? id = none → new.block? id = some after →
    cursor ≠ some ⟨func, id⟩ → after.isTerminated = true

/-- The region law of a call from an open block. -/
def regionLaw : CallLaw := fun _ before value after =>
  ∀ cursor, before.builder.cursor = some cursor →
    Module.Beside cursor.func before.builder.target after.builder.target ∧
    ∃ old new, before.builder.target.function? cursor.func = some old ∧
      after.builder.target.function? cursor.func = some new ∧
      Region cursor.block before.env.innermostLoop? old new ∧
      Landing cursor.func cursor.block old new value after.builder.cursor

/-! ### Calls from where a construct stands -/

section Standing

variable {now : Moment} {context : Context} {cursor : Cursor}

theorem Moment.Valid.found (valid : now.Valid) {func : FuncId}
    (current : now.builder.current = some func) :
    now.builder.target.function? func = some now.body := by
  obtain ⟨func', current', found⟩ := valid.current
  cases current.symm.trans current'
  exact found

/-- A call has done nothing yet when it starts. -/
theorem Standing.reach (standing : Standing now now context.env context)
    (positioned : now.builder.cursor = some cursor) :
    Reach now.builder cursor context.env.innermostLoop? now.body now.builder := by
  obtain ⟨current, opened⟩ := standing.valid.cursor cursor positioned
  refine ⟨current, fun cursor' positioned' => ?_, .refl _ _, Nat.le_refl _, fun _ => id, now.body,
    standing.valid.found current,
    .refl standing.valid.labelled.started standing.valid.slots opened.2⟩
  cases positioned.symm.trans positioned'
  exact ⟨rfl, .inl rfl⟩

theorem Standing.rules (standing : Standing now now context.env context)
    (positioned : now.builder.cursor = some cursor) :
    (Regime.region now.builder cursor context.env.innermostLoop? now.body).Rules context := by
  refine ⟨?_, fun frame targets first second => ?_⟩
  · rw [standing.building]
    exact standing.reach positioned
  · have innermost : context.env.innermostLoop? = some targets := by
      rw [Env.innermostLoop?, first]
      exact second
    exact ⟨.inr ⟨targets, innermost, .inl rfl⟩, .inr ⟨targets, innermost, .inr rfl⟩⟩

/-- Nothing was dropped from a block that was there before. -/
theorem continues_of_worked {next : Moment} {count : Nat} {id start : BlockId}
    {before after : Block} (valid : now.Valid) (since : Since now next)
    (found : now.body.block? id = some before) (found' : next.body.block? id = some after)
    (worked : Block.Worked (fun name => ¬ now.body.Names name) start count id before after) :
    ∃ more, Continues id before after more ∧ (id ≠ start → more = []) := by
  obtain ⟨front, slots, back, kept, more, carried, _, inner, elsewhere⟩ := worked.code
  obtain rfl : kept = back := by
    refine carried.kept_eq ?_ fun inst member => ?_
    · rw [← Function.code_of_block? found]
      exact valid.certified.distinct id
    · rw [← Function.code_of_block? found] at member
      rw [← Function.code_of_block? found']
      exact ⟨since.within.code id inst member, fun new => new ⟨inst.ty, id, inst, member, rfl⟩⟩
  refine ⟨more, ⟨worked.title, front, slots, kept, carried.before, carried.now, carried.allocas,
    fun differs => ?_⟩, fun differs => (elsewhere differs).2⟩
  exact (List.append_eq_nil_iff.1 (inner differs)).2

theorem region_of_worked {next : Moment} {count : Nat} {start : BlockId}
    {loop : Option LoopTargets} (valid : now.Valid) (valid' : next.Valid) (since : Since now next)
    (opened : now.Open start)
    (worked : Function.Worked (CallTarget now.body loop) start now.body count next.body) :
    Region start loop now.body next.body := by
  refine ⟨?_, fun id before found elsewhere => ?_, fun id after terminator owned found closed target
    successor => ?_⟩
  · obtain ⟨before, found⟩ := Option.isSome_iff_exists.1 opened.1
    obtain ⟨after, found', block⟩ := worked.blocks start before found
    obtain ⟨more, continues, _⟩ := continues_of_worked valid since found found' block
    exact ⟨before, after, more, found, (Function.exit?_of_block? found).symm.trans opened.2, found',
      continues⟩
  · obtain ⟨after, found', block⟩ := worked.blocks id before found
    obtain ⟨more, continues, none⟩ := continues_of_worked valid since found found' block
    obtain rfl := none elsewhere
    exact ⟨after, found', continues, block.exit elsewhere⟩
  · have exit : next.body.exit? id = some terminator :=
      (Function.exit?_of_block? found).trans closed
    have exists' := (valid'.certified.inner id target ⟨terminator, exit, successor⟩).2
    exact (worked.jumps id owned terminator exit target successor).imp_left fun new =>
      ⟨new, exists'⟩

theorem landing_of_reach {next : Moment} {loop : Option LoopTargets} {value : Value}
    (valid' : next.Valid) (since : Since now next) (positioned : now.builder.cursor = some cursor)
    (reach : Reach now.builder cursor loop now.body next.builder)
    (finished : next.builder.cursor = none → value = .unreachable) :
    Landing cursor.func cursor.block now.body next.body value next.builder.cursor := by
  refine ⟨?_, fun id after owned found elsewhere => ?_⟩
  · cases positioned' : next.builder.cursor with
    | none => exact .inl ⟨rfl, finished positioned'⟩
    | some cursor' =>
      obtain ⟨inside, owned⟩ := reach.cursor cursor' positioned'
      obtain ⟨_, has, opened⟩ := valid'.cursor cursor' positioned'
      obtain ⟨after, found⟩ := Option.isSome_iff_exists.1 has
      refine .inr ⟨cursor'.block, after, ?_, owned, found, ?_⟩
      · rw [← inside]
      · rw [← Function.exit?_of_block? found, opened]
  · cases closed : after.terminator with
    | some terminator =>
      rw [Block.isTerminated, closed]
      rfl
    | none =>
      -- an open block away from the cursor waited before the call, so it is not of the region
      have waiting : next.Waiting id := by
        refine ⟨⟨by rw [Has, found]; rfl, (Function.exit?_of_block? found).trans closed⟩, ?_⟩
        intro here
        obtain ⟨cursor', positioned', rfl⟩ := Option.map_eq_some_iff.1 here
        obtain ⟨inside, _⟩ := reach.cursor cursor' positioned'
        exact elsewhere (by rw [positioned', ← inside])
      obtain ⟨⟨has, _⟩, away⟩ := (since.waiting id).1 waiting
      rcases owned with rfl | new
      · rw [here?, positioned] at away
        exact absurd rfl away
      · rw [Has, new] at has
        cases has

/-- The law holds wherever a construct may stand. -/
theorem regionLaw_holdsStanding (source : Source) : regionLaw.HoldsStanding source := by
  intro taken fuel expr now context value after standing returned cursor positioned
  rw [standing.building] at positioned
  have valid := standing.valid
  obtain ⟨current, opened⟩ := valid.cursor cursor positioned
  obtain ⟨next, same, valid', since, _, _⟩ :=
    ((within_sound source taken fuel).expr standing expr).of_ok returned
  have accounts : now.builder.Accounts now.body := ⟨valid.temps, valid.names⟩
  obtain ⟨_, ⟨reach, _⟩, _, finished⟩ :=
    (((Regime.region.steady source accounts).within trivial Regime.region.fits
      (fun _ _ => trivial) taken fuel expr).expr context (standing.rules positioned)).of_ok returned
  rw [Finished, ← same] at finished
  have reach' : Reach now.builder cursor context.env.innermostLoop? now.body next.builder :=
    same ▸ reach
  have found := valid'.found (since.current.trans current)
  obtain ⟨new, stored, worked⟩ := reach'.worked
  cases stored.symm.trans found
  rw [standing.building, ← same]
  exact ⟨reach'.beside, now.body, next.body, valid.found current, found,
    region_of_worked valid valid' since opened worked,
    landing_of_reach valid' since positioned reach' finished⟩

end Standing

open Classical in
/-- Every expression that is lowered from an open block, while a program is lowered, keeps to its
region. -/
theorem everyCall_regionLaw (source : Source) (options : Options) :
    EveryCall source options regionLaw :=
  everyCall_of_standing (regionLaw_holdsStanding source) options

end TreeLowering.Lowering
