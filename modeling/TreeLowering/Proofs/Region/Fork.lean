/-
This file takes a short-circuit operator apart, into its operands, what is done between them, and what
is done behind the right one. Between the operands the ways part: the block that the left operand ends
in is closed by a branch on its value, and nothing else leads to the block of the right one.
-/

import TreeLowering.Proofs.Calls.Unfold
import TreeLowering.Proofs.Flow.Branch
import TreeLowering.Proofs.Jumps.Law

namespace TreeLowering.Lowering

open TreeLowering.Ir TreeLowering.Tree Moment

/-! ### The parts -/

/-- The slot of a short-circuit operator, and the blocks it makes in a function. -/
structure Ways where
  func : FuncId
  slot : Value
  right : BlockId
  merge : BlockId

/-- What a short-circuit operator does between its operands. -/
def partWays (isAnd : Bool) (test : Value) (span : Span) : LowerM Ways := do
  expectBool test span
  let func ← currentFunction
  let slot ← build (Build.alloca .bool none)
  build (Build.store slot test)
  let right ← build (Build.newBlock (if isAnd then "and.rhs" else "or.rhs"))
  let merge ← build (Build.newBlock (if isAnd then "and.merge" else "or.merge"))
  build (shortCircuitBranch isAnd test right merge)
  build (Build.positionAt func right)
  return ⟨func, slot, right, merge⟩

/-- What a short-circuit operator does behind its right operand. -/
def meetWays (ways : Ways) (value : Value) : LowerM Value := do
  if ← isLive then
    build (Build.store ways.slot value)
    build (Build.jump ways.merge)
  build (Build.positionAt ways.func ways.merge)
  build (Build.load ways.slot .bool)

/-- How the block ends that the left operand ends in: `&&` goes on to its right operand where the left
one is true, and `||` where it is false. -/
def choice (isAnd : Bool) (test : Value) (right merge : BlockId) : Terminator :=
  if isAnd then .branch test right merge else .branch test merge right

section Parts

variable {walk : Walk} {isAnd : Bool} {left right : ExprId} {test : Value} {span : Span}

theorem lowerShortCircuit_eq (walk : Walk) (isAnd : Bool) (left right : ExprId) (span : Span) :
    lowerShortCircuit walk isAnd left right span = walk.withValue left fun test =>
      partWays isAnd test span >>= fun ways => walk.expr right >>= meetWays ways := by
  unfold lowerShortCircuit partWays meetWays
  simp only [bind_assoc, pure_bind]

theorem shortCircuitBranch_eq (isAnd : Bool) (test : Value) (right merge : BlockId) :
    shortCircuitBranch isAnd test right merge =
      Build.terminate (choice isAnd test right merge) := by
  cases isAnd <;> rfl

theorem mem_choice {right merge target : BlockId} :
    target ∈ (choice isAnd test right merge).successors ↔ target = right ∨ target = merge := by
  cases isAnd
  · exact List.mem_pair.trans or_comm
  · exact List.mem_pair

end Parts

/-! ### Both keep to the rules -/

section Steady

variable {regime : Regime} {source : Source} (steady : regime.Steady source) {context : Context}

include steady

theorem Regime.Steady.partWays (isAnd : Bool) (test : Value) (span : Span) :
    Keeps regime id (partWays isAnd test span) context fun _ _ => True := by
  refine (steady.expectBool test span).bind fun _ _ _ => ?_
  refine steady.currentFunction.bind fun func _ ⟨mine, _⟩ => ?_
  refine steady.slot.bind fun slot _ _ => steady.store.bind fun _ _ _ => ?_
  refine steady.newBlock.bind fun right _ ⟨own, free⟩ => ?_
  refine steady.newBlock.bind fun merge _ ⟨_, free'⟩ => ?_
  have branched : ∀ context, Keeps regime id (build (shortCircuitBranch isAnd test right merge))
      context fun _ _ => True := by
    intro context
    cases isAnd
    · exact (steady.branch free' free).mono fun _ _ _ => trivial
    · exact (steady.branch free free').mono fun _ _ _ => trivial
  exact (branched _).bind fun _ _ _ => (steady.positionAt mine own).bind fun _ _ _ => .pure trivial

theorem Regime.Steady.meetWays {ways : Ways} (mine : regime.mine ways.func)
    (own : regime.own ways.merge) (free : regime.free ways.merge) (value : Value) :
    Keeps regime id (meetWays ways value) context fun _ _ => True := by
  have joined : ∀ context, Keeps regime id (do
      build (Build.positionAt ways.func ways.merge)
      build (Build.load ways.slot .bool)) context fun _ _ => True := fun context =>
    (steady.positionAt mine own).bind fun _ _ _ =>
      Keeps.mono (steady.computes nofun) fun _ _ _ => trivial
  refine Keeps.isLive.bind fun live _ _ => ?_
  split
  · exact steady.store.bind fun _ _ _ => (steady.jump free).bind fun _ _ _ => joined _
  · exact joined _

end Steady

/-! ### Parting -/

/-- The ways have parted at the end of the block `fork`, and the cursor is in the block of the right
operand, which only `fork` leads to. -/
structure Parted (isAnd : Bool) (test : Value) (fork : Cursor) (ways : Ways)
    (before after : Builder) : Prop where
  start : before.cursor = some fork
  func : ways.func = fork.func
  cursor : after.cursor = some ⟨fork.func, ways.right⟩
  has : after.Has ways.right
  differs : ways.right ≠ ways.merge
  exit : after.body.exit? fork.block = some (choice isAnd test ways.right ways.merge)
  entered : ∀ source, after.body.Precedes source ways.right ↔ source = fork.block

section Parting

variable {base now : Moment} {env : Env} {context after : Context} {test : Value} {span : Span}
  {isAnd : Bool} {ways : Ways}

theorem context_of_currentFunction {func : FuncId}
    (found : currentFunction context = .ok func after) :
    context.builder.current = some func ∧ after = context := by
  have asked : Returns Build.currentFunction context.builder fun func later =>
      context.builder.current = some func ∧ later = context.builder :=
    Build.returns_currentFunction fun _ current => ⟨current, rfl⟩
  have returned := builder_of_build found
  obtain ⟨current, same⟩ := asked _ _ returned
  rw [same] at returned
  cases (build_ok returned).symm.trans found
  exact ⟨current, rfl⟩

/-- The builder of a valid moment is at work. -/
theorem Moment.Valid.atWork (valid : now.Valid) : now.builder.AtWork :=
  ⟨valid.current, valid.cursor, valid.labelled.started⟩

/-- A new block changes no edge. -/
theorem Builder.AtWork.precedes_newBlock {builder : Builder} (work : builder.AtWork) (hint : String) :
    Returns (Build.newBlock hint) builder fun _ later => ∀ source target,
      later.body.Precedes source target ↔ builder.body.Precedes source target := by
  refine Build.returns_newBlock fun func function current stored source target => ?_
  obtain ⟨_, body⟩ := work.changed { builder with
    target := builder.target.modifyFunction func fun function => function.addBlock hint }
    (fun function => function.addBlock hint) current rfl rfl
  rw [body, Function.Precedes, Function.exit?_addBlock work.started, Function.Precedes]

/-- Closing a block adds the edges of its terminator. -/
theorem Builder.AtWork.precedes_terminate {builder : Builder} {cursor : Cursor}
    (work : builder.AtWork) (positioned : builder.cursor = some cursor) (terminator : Terminator) :
    Returns (Build.terminate terminator) builder fun _ later =>
      later.body.exit? cursor.block = some terminator ∧ ∀ source target,
        later.body.Precedes source target ↔ builder.body.Precedes source target ∨
          source = cursor.block ∧ target ∈ terminator.successors := by
  refine Build.returns_terminate fun cursor' positioned' _ => ?_
  cases positioned.symm.trans positioned'
  obtain ⟨current, has, opened⟩ := work.cursor cursor positioned
  obtain ⟨block, found⟩ := Option.isSome_iff_exists.1 has
  obtain ⟨_, body⟩ := work.changed { builder with
    cursor := none
    target := builder.target.modifyBlock cursor.func cursor.block fun found =>
      found.terminate terminator }
    (fun function => function.modifyBlock cursor.block fun found => found.terminate terminator)
    current rfl rfl
  rw [body]
  refine ⟨?_, fun source target => Function.precedes_terminate found opened⟩
  rw [Function.exit?_terminate found, if_pos rfl]

/-- Moving the cursor within the function being built changes nothing else. -/
theorem Builder.AtWork.positionAt {builder : Builder} {func : FuncId} (work : builder.AtWork)
    (current : builder.current = some func) (id : BlockId) :
    Returns (Build.positionAt func id) builder fun _ later =>
      later.body = builder.body ∧ later.cursor = some ⟨func, id⟩ := by
  refine Build.returns_positionAt fun target same _ => ⟨?_, rfl⟩
  rw [Module.modifyFunction_of_same (work.found current) (by
    rw [Function.withEntry, work.started]
    rfl)] at same
  subst same
  rw [enter, if_pos current]
  rfl

/-- A slot and a store leave the cursor where it is, and then every jump leads to a block that
exists. -/
theorem Standing.slotted {slot : Value} {between : Context} (standing : Standing base now env context)
    (produced : Produced base now test)
    (reserves : build (Build.alloca .bool none) context = .ok slot between)
    (stores : build (Build.store slot test) between = .ok () after) :
    after.builder.AtWork ∧ after.builder.current = context.builder.current ∧
      after.builder.cursor = context.builder.cursor ∧
      (∀ id, base.Has id → after.builder.Has id) ∧
      ∀ source target, after.builder.body.Precedes source target → after.builder.Has target := by
  have reserves := builder_of_build reserves
  have stores := builder_of_build stores
  have cursor := ((Build.stays_store slot test _).of_ok stores).cursor.trans
    ((Build.stays_alloca .bool none _).of_ok reserves).cursor
  rw [standing.building] at reserves cursor ⊢
  obtain ⟨slotted, same, valid, since, live, address⟩ :=
    (reserved standing.valid standing.live).of_ok reserves
  rw [← same] at stores
  obtain ⟨later, same', valid', since', _, _⟩ := (stored standing.start
    (standing.since.trans standing.live since) valid live address
    (produced.later since live)).of_ok stores
  rw [← same'] at cursor ⊢
  exact ⟨valid'.atWork, since'.current.trans standing.since.current.symm, cursor, since'.blocks,
    fun source target edge => (valid'.certified.inner source target edge).2⟩

/-- The ways part at the end of the left operand. -/
theorem Standing.partWays (standing : Standing base now env context) (produced : Produced base now test)
    (returned : partWays isAnd test span context = .ok ways after) :
    ∃ fork, Parted isAnd test fork ways context.builder after.builder ∧ ¬ base.Has ways.right := by
  unfold Lowering.partWays at returned
  obtain ⟨_, first, checked, rest⟩ := run_bind_ok returned
  obtain rfl := context_of_expectBool checked
  obtain ⟨func, second, found, rest⟩ := run_bind_ok rest
  obtain ⟨slot, third, reserves, rest⟩ := run_bind_ok rest
  obtain ⟨_, fourth, stores, rest⟩ := run_bind_ok rest
  obtain ⟨right, fifth, opens, rest⟩ := run_bind_ok rest
  obtain ⟨merge, sixth, opens', rest⟩ := run_bind_ok rest
  obtain ⟨_, seventh, closes, rest⟩ := run_bind_ok rest
  obtain ⟨_, last, moves, rest⟩ := run_bind_ok rest
  cases rest
  obtain ⟨current, rfl⟩ := context_of_currentFunction found
  obtain ⟨work₄, current₄, cursor₄, blocks₄, inner₄⟩ := standing.slotted produced reserves stores
  -- the block of the right operand is new, so nothing leads there before the branch does
  have from₄ : Builder.Spares (fun _ => True) fourth.builder fourth.builder := .refl work₄
  obtain ⟨spares₅, new, has⟩ := from₄.newBlock _ _ _ (builder_of_build opens)
  have from₅ : Builder.Spares (fun _ => True) fifth.builder fifth.builder := .refl spares₅.work
  obtain ⟨spares₆, new', _⟩ := from₅.newBlock _ _ _ (builder_of_build opens')
  have edges₅ := work₄.precedes_newBlock _ _ _ (builder_of_build opens)
  have edges₆ := spares₅.work.precedes_newBlock _ _ _ (builder_of_build opens')
  have unentered : ∀ source, ¬ sixth.builder.body.Precedes source right := fun source edge =>
    new (inner₄ source right ((edges₅ _ _).1 ((edges₆ _ _).1 edge)))
  obtain ⟨fork, start⟩ : ∃ fork, second.builder.cursor = some fork :=
    Option.isSome_iff_exists.1 (standing.building ▸ standing.live)
  have positioned : sixth.builder.cursor = some fork := by
    rw [cursor_of_newBlock opens', cursor_of_newBlock opens, cursor₄, start]
  have closes' : Build.terminate (choice isAnd test right merge) sixth.builder =
      .ok () seventh.builder := shortCircuitBranch_eq isAnd test right merge ▸ builder_of_build closes
  obtain ⟨exit, edges₇⟩ := spares₆.work.precedes_terminate positioned _ _ _ closes'
  have spares₇ := spares₆.terminate (fun _ _ _ => trivial) _ _ closes'
  have current₅ : fifth.builder.current = some func :=
    spares₅.current.trans (current₄.trans current)
  obtain ⟨body, cursor⟩ := spares₇.work.positionAt (spares₇.current.trans current₅) right _ _
    (builder_of_build moves)
  obtain rfl : func = fork.func := Option.some.inj
    ((spares₆.current.trans current₅).symm.trans (spares₆.work.cursor fork positioned).1)
  have apart : right ≠ merge := by
    rintro rfl
    exact new' has
  refine ⟨fork, ⟨start, rfl, cursor, ?_, apart, ?_, fun source => ?_⟩,
    fun old => new (blocks₄ right old)⟩
  · rw [Builder.Has, body]
    exact spares₇.blocks right has
  · rw [body, exit]
  · rw [body, edges₇, mem_choice]
    constructor
    · rintro (old | ⟨rfl, _⟩)
      · exact absurd old (unentered source)
      · rfl
    · rintro rfl
      exact .inr ⟨rfl, .inl rfl⟩

end Parting

end TreeLowering.Lowering
