/-
This file proves that variables are lowered faithfully. A variable is read from the operand it is
bound to or loaded from its slot, and it is assigned to by a store into its slot. The target of a
compound assignment is read first, and its value is still there when the other operand is known.
-/

import TreeLowering.Proofs.Meaning.Memory
import TreeLowering.Proofs.Meaning.Operator

namespace TreeLowering.Lowering

open TreeLowering.Ir TreeLowering.Tree Builder

section Variable

variable {source : Source} {site : Site} {context : Context} {walk : Walk} {prim : Prim} {name : Name}
  {run : Run} {now later : Builder} {id : BlockId} {previous : Option BlockId} {state : State}

/-! ### Reading -/

/-- A variable that is read has a value of its type, and what it is bound to holds the value. -/
theorem Run.Holds.read {locals locals' : Locals} {outcome : Outcome} {binding : Binding}
    (holds : run.Holds site locals state) (found : site.env.resolve? name = some binding)
    (typed : site.prims.resolve? name = some prim)
    (evaluated : Evaluation.read name locals = some (outcome, locals')) :
    ∃ scalar, outcome = .value scalar ∧ locals' = locals ∧
      run.Carries state binding (some scalar) ∧ scalar.prim = prim ∧ prim ≠ .never := by
  obtain ⟨scalar, present, rfl, rfl⟩ := Evaluation.given_eq_some evaluated
  obtain ⟨content, resolved, assigned⟩ := Option.bind_eq_some_iff.1 present
  obtain rfl : content = some scalar := assigned
  obtain ⟨content, resolved', carries⟩ := holds.cells.found found
  obtain ⟨content', resolved'', has⟩ := holds.typed.found typed
  cases resolved.symm.trans resolved'
  cases resolved.symm.trans resolved''
  exact ⟨scalar, rfl, rfl, carries, has scalar rfl⟩

/-- A variable that is held as an operand is a value. -/
theorem Stands.operand {binding : Binding} {value : Value} (stands : Stands source site context)
    (found : site.env.resolve? name = some binding) (typed : site.prims.resolve? name = some prim)
    (known : Known context.builder.body value)
    (direct : ∀ (run : Run) state scalar, run.Carries state binding (some scalar) →
      run.Shows state value scalar) :
    Means source site context.builder (fun _ => .read name) prim value context := by
  refine ⟨⟨stands.fit, .refl _, stands.env, stands.memo⟩, known,
    fun run _ _ locals outcome locals' evaluated id previous state here holds _ => ?_⟩
  obtain ⟨scalar, rfl, rfl, carries, same, inhabited⟩ := holds.read found typed evaluated
  exact Run.ends_shows ⟨stands.fit, rfl, rfl, rfl⟩ here holds (direct run state scalar carries) same
    inhabited

theorem Stands.load {address : Value} {ty : Ty} {mutable : Bool} (stands : Stands source site context)
    (found : site.env.resolve? name = some (.slot address ty mutable))
    (typed : site.prims.resolve? name = some prim) :
    Ensures (build (Build.load address ty)) context fun value after =>
      Means source site context.builder (fun _ => .read name) prim value after ∧
        ∃ id, after.builder.here? = some id := by
  obtain ⟨id, here⟩ := stands.live
  obtain ⟨binding, found', suits⟩ := stands.bound.entries.found typed
  cases found.symm.trans found'
  obtain ⟨rfl, slot, rfl, reserved⟩ := suits
  unfold Build.load
  rw [ensures_build]
  refine (stands.fit.emit here rfl).mono fun value later emitted => ?_
  obtain ⟨result, rfl, emits⟩ := emitted
  refine ⟨⟨⟨emits.fit, emits.leads, stands.env, stands.memo⟩,
    ⟨⟨prim, rfl⟩, fun _ named => by cases named; exact emits.sets⟩, fun run grown _ => ?_⟩,
    id, emits.here⟩
  intro locals outcome locals' evaluated id' previous state here' holds _
  cases here.symm.trans here'
  obtain ⟨scalar, rfl, rfl, carries, same, inhabited⟩ := holds.read found typed evaluated
  obtain ⟨slotted, stores⟩ := carries scalar rfl
  have home := holds.homes _ ((emits.leads.grown.trans grown).slots _ reserved)
  refine Run.ends_emit emits grown stands.bound holds ?_ slotted same inhabited
  rw [← same]
  exact Run.compute_load home stores

theorem Stands.lowerPath (stands : Stands walk.toSource site context) (span : Span)
    (typed : site.prims.resolve? name = some prim) :
    Ensures (lowerPath walk [name] span) context
      (Means walk.toSource site context.builder (fun _ => .read name) prim) := by
  obtain ⟨binding, found, suits⟩ := stands.bound.entries.found typed
  have bound : context.env.resolve? name = some binding := by
    rw [stands.env]
    exact found
  unfold Lowering.lowerPath Walk.singleName
  rw [pure_bind, ensures_bind, ensures_localBinding, bound]
  cases binding with
  | value value =>
    refine stands.operand found typed suits fun run state scalar carries => ?_
    obtain ⟨_, same, shows⟩ := carries
    cases same
    exact shows
  | param value =>
    refine stands.operand found typed suits fun run state scalar carries => ?_
    obtain ⟨_, same, shows⟩ := carries
    cases same
    exact shows
  | slot address ty mutable => exact (stands.load found typed).mono fun _ _ loaded => loaded.1

/-- The place of a variable is its slot, if it may be assigned to. -/
theorem Stands.pathPlace (stands : Stands walk.toSource site context) (span : Span)
    (typed : site.prims.resolve? name = some prim) :
    Ensures (pathPlace walk [name] span) context fun place after =>
      (∃ id, after.builder.here? = some id) ∧ (place.mutable = true →
        after = context ∧ site.env.resolve? name = some (.slot place.address place.ty true)) := by
  obtain ⟨binding, found, suits⟩ := stands.bound.entries.found typed
  have bound : context.env.resolve? name = some binding := by
    rw [stands.env]
    exact found
  have spilled : ∀ value, Known context.builder.body value →
      Ensures (spill value (walk.text name)) context fun place after =>
        (∃ id, after.builder.here? = some id) ∧ (place.mutable = true →
          after = context ∧ site.env.resolve? name = some (.slot place.address place.ty true)) := by
    intro value known
    obtain ⟨prim, scalar⟩ := known.scalar
    obtain ⟨id, here⟩ := stands.live
    unfold spill
    rw [ensures_bind, ensures_build]
    refine stands.fit.reserve.mono fun address second reserved => ?_
    obtain ⟨slot, rfl, reserves⟩ := reserved
    rw [ensures_bind, ensures_build]
    refine (reserves.fit.store (reserves.here.trans here) (by rw [scalar]; rfl)).mono
      fun _ third stored => ?_
    obtain ⟨_, emits⟩ := stored
    exact ⟨⟨id, emits.here⟩, fun mutable => by cases mutable⟩
  unfold Lowering.pathPlace Walk.singleName
  rw [pure_bind, ensures_bind, ensures_localBinding, bound]
  cases binding with
  | value value => exact spilled value suits
  | param value => exact spilled value suits
  | slot address ty mutable =>
    refine ⟨stands.live, fun same => ⟨rfl, ?_⟩⟩
    dsimp only at same
    rw [← same]
    exact found

/-! ### Assignment -/

/-- A store into the slot of a variable assigns to it. -/
theorem Run.simulates_write {address value : Value} {ty : Ty} {mutable : Bool} {scalar : Scalar}
    {result : ValueName} (emits : Emits now later id ⟨result, .unit, .store address value⟩)
    (here : now.here? = some id) (grown : later.body.Extends run.function)
    (bound : Bound now.body site) (found : site.env.resolve? name = some (.slot address ty mutable))
    (typed : site.prims.resolve? name = some prim) (same : scalar.prim = prim)
    (inhabited : prim ≠ .never) :
    run.Simulates site now later (fun state => run.Shows state value scalar) .unit .unit
      (.write name scalar) := by
  intro locals outcome locals' evaluated id' previous state here' holds shows
  cases here.symm.trans here'
  obtain ⟨binding, found', suits⟩ := bound.entries.found typed
  cases found.symm.trans found'
  obtain ⟨rfl, slot, rfl, reserved⟩ := suits
  have member : slot ∈ slotNames site.env.scopes :=
    List.mem_filterMap.2 ⟨_, Scopes.mem_of_resolve? found, rfl⟩
  have grown' := emits.leads.grown.trans grown
  have reserved' := reserved_of_bound bound grown' member
  unfold Evaluation.write at evaluated
  split_ifs at evaluated
  cases evaluated
  refine ⟨rfl, by decide, id, emits.here, previous, run.stored state result slot scalar,
    reaches_emit emits grown (compute_store (reserved'.home holds) shows),
    .stored emits.fresh grown' reserved' fun _ _ _ => member, ⟨rfl, rfl⟩, ?_⟩
  exact holds.write bound emits grown found typed same inhabited (by rw [same])

/-- An assignment goes on with its target, which is the slot of the variable. -/
theorem Stands.withTarget {target : ExprId} {span : Span} {next : Place → LowerM Value}
    {post : Value → Context → Prop} (stands : Stands walk.toSource site context)
    (faithful : walk.Faithful) (assigned : walk.program.assignee? target = some name)
    (typed : site.prims.resolve? name = some prim)
    (rest : ∀ place, site.env.resolve? name = some (.slot place.address place.ty true) →
      Ensures (next place) context post) : Ensures (withTarget walk target span next) context post := by
  refine Stands.thenLive (faithful.place stands assigned typed) (fun place after found nowhere => ?_)
    fun place after found live => ?_
  · obtain ⟨⟨id, here⟩, _⟩ := found
    rw [nowhere] at here
    cases here
  · split_ifs with mutable
    · obtain ⟨rfl, bound⟩ := found.2 mutable
      exact rest place bound
    · rfl

theorem Stands.lowerAssign {depth : Nat} {target value : ExprId} {span : Span} {wanted : Prim}
    (stands : Stands walk.toSource site context) (faithful : walk.Faithful)
    (assigned : walk.program.assignee? target = some name)
    (typed : site.prims.resolve? name = some wanted)
    (checked : walk.program.wellTyped site.ret depth site.leaves site.prims value = true)
    (suits : walk.program.suits wanted value = true)
    (unit : walk.program.diverges value = true ∨ prim = .unit) :
    Ensures (lowerAssign walk target value span) context (Means walk.toSource site context.builder
      (fun fuel => (walk.program.evaluate fuel value).andThen fun scalar => .write name scalar)
      prim) := by
  obtain ⟨_, _, carried, _, _, carries, _⟩ := Program.wellTyped_cases checked
  unfold Lowering.lowerAssign
  refine stands.withTarget faithful assigned typed fun place found => ?_
  refine stands.afterValue faithful checked carries fun value second known stands₂ => ?_
  obtain ⟨id, here⟩ := stands₂.live
  obtain ⟨_, scalar⟩ := known.scalar
  rw [ensures_bind, ensures_build]
  refine (stands₂.fit.store here (by rw [scalar]; rfl)).mono fun _ third stored => ?_
  obtain ⟨result, emits⟩ := stored
  refine ⟨⟨emits.fit, emits.leads, stands₂.env, stands₂.memo⟩, .of_constant rfl rfl,
    fun run grown fuel scalar same inhabited => ?_⟩
  obtain rfl := unit.resolve_left (Program.not_diverges carries inhabited)
  obtain rfl := Program.prim_of_suits suits carries inhabited
  exact Run.simulates_write emits here grown stands₂.bound found typed same inhabited

/-- The target keeps the value that was read before the other operand was computed. -/
theorem Stands.lowerCompound {depth : Nat} {op : BinaryOp} {target value : ExprId} {span : Span}
    {wanted : Prim} (stands : Stands walk.toSource site context) (faithful : walk.Faithful)
    (assigned : walk.program.assignee? target = some name)
    (typed : site.prims.resolve? name = some wanted)
    (checked : walk.program.wellTyped site.ret depth site.leaves site.prims value = true)
    (unit : walk.program.diverges value = true ∨ op.resultPrim wanted = wanted ∧ prim = .unit) :
    Ensures (lowerCompound walk op target value span) context (Means walk.toSource site context.builder
      (fun fuel => (Evaluation.read name).andThen fun current =>
        (walk.program.evaluate fuel value).andThen fun scalar =>
          (Evaluation.given (current.binary? op scalar)).andThen fun combined => .write name combined)
      prim) := by
  obtain ⟨_, _, carried, _, _, carries, _⟩ := Program.wellTyped_cases checked
  unfold Lowering.lowerCompound
  refine stands.withTarget faithful assigned typed fun place found => ?_
  rw [ensures_bind]
  refine (stands.load found typed).mono fun current second loaded => ?_
  obtain ⟨reads, live⟩ := loaded
  have stands₂ := reads.toGives.stands stands.bound live
  refine stands₂.withValue faithful checked carries (fun _ third means nowhere => ?_)
    fun other third means stands₃ => ?_
  · refine ⟨⟨means.fit, reads.leads.trans means.leads, means.env, means.memo⟩, .of_constant rfl rfl,
      fun run grown fuel => ?_⟩
    refine (reads.runs run (means.leads.grown.trans grown) fuel).andThen reads.leads.grown
      (fun _ _ _ _ => trivial) fun scalar _ _ => ?_
    exact ((means.runs run grown fuel).weaken fun _ _ => trivial).dead nowhere
  obtain ⟨id, here⟩ := stands₃.live
  rw [ensures_bind]
  refine (stands₃.emitBinary here reads.known.scalar span).mono fun combined fourth emitted => ?_
  obtain ⟨inst, rfl, kept, emits, combines⟩ := emitted
  obtain ⟨_, scalar⟩ := combines.scalar
  rw [ensures_bind, ensures_build]
  refine (emits.fit.store emits.here (by rw [Instruction.result]; exact scalar ▸ rfl)).mono
    fun _ fifth stored => ?_
  obtain ⟨result, emits'⟩ := stored
  have leads₃ := reads.leads.trans means.leads
  refine ⟨⟨emits'.fit, (leads₃.trans emits.leads).trans emits'.leads, by rw [kept]; exact means.env,
    by rw [kept]; exact means.memo⟩, .of_constant rfl rfl, fun run grown fuel => ?_⟩
  have grown₄ := emits'.leads.grown.trans grown
  have grown₃ := emits.leads.grown.trans grown₄
  refine (reads.runs run (means.leads.grown.trans grown₃) fuel).andThen reads.leads.grown
    (fun _ _ _ _ => trivial) fun first sameFirst inhabitedFirst => ?_
  refine ((means.runs run grown₃ fuel).weaken fun _ _ => trivial).andThen means.leads.grown
    (fun _ _ kept shown => ⟨trivial, shown.2.kept reads.known kept⟩) fun second _ inhabited => ?_
  obtain ⟨same, rfl⟩ := unit.resolve_left (Program.not_diverges carries inhabited)
  refine ((combines.simulates emits here grown₄ stands₃.bound (by rw [sameFirst, same])
    inhabitedFirst).weaken fun state shows => ⟨shows.1.2, shows.2⟩).andThen emits.leads.grown
      (fun _ _ kept shown => ?_) fun combined sameCombined _ => ?_
  · exact ⟨⟨trivial, shown.1.2.kept (reads.known.mono means.leads.grown) kept⟩,
      shown.2.kept means.known kept⟩
  · exact (Run.simulates_write emits' emits.here grown (stands₃.bound.mono emits.leads.grown) found
      typed sameCombined inhabitedFirst).weaken fun _ shows => shows.2

end Variable

end TreeLowering.Lowering
