/-
This file says what later steps of a run spare of the function being built. Its blocks stay, a
closed block keeps its exit, and an instruction stays in its block unless it is a load, which may be
dropped. A block gets no new predecessor, unless it is new itself or somebody still awaits control
there. All this is a steady regime.
-/

import TreeLowering.Proofs.Meaning.Build
import TreeLowering.Proofs.Regime.Expr
import TreeLowering.Proofs.Regime.Returned
import TreeLowering.Proofs.Types.Recall

namespace TreeLowering.Ir

def Operation.isLoad : Operation → Bool
  | load _ => true
  | _ => false

end TreeLowering.Ir

namespace TreeLowering.Lowering

open TreeLowering.Ir TreeLowering.Tree

/-! ### Loops -/

/-- Both edges of the innermost loop, if there is one, are allowed. -/
def LoopIn (allowed : BlockId → Prop) (frames : List Frame) : Prop :=
  ∀ frame targets, frames.head? = some frame → frame.loops.head? = some targets →
    allowed targets.breakTo ∧ allowed targets.continueTo

namespace LoopIn

variable {allowed allowed' : BlockId → Prop} {frames : List Frame} {env : Env}

theorem mono (loopIn : LoopIn allowed frames) (weaker : ∀ id, allowed id → allowed' id) :
    LoopIn allowed' frames := fun frame targets first innermost =>
  (loopIn frame targets first innermost).imp (weaker _) (weaker _)

theorem pushLoop {targets : LoopTargets} (loopIn : LoopIn allowed env.frames)
    (leave : allowed targets.breakTo) (again : allowed targets.continueTo) :
    LoopIn allowed (env.pushLoop targets).frames := by
  obtain ⟨scopes, frames⟩ := env
  cases frames with
  | nil => exact loopIn
  | cons frame outer =>
    intro _ _ first innermost
    cases first
    cases innermost
    exact ⟨leave, again⟩

theorem target {jump : LoopJump} {target : BlockId} (loopIn : LoopIn allowed env.frames)
    (found : env.target? jump = some target) : allowed target := by
  obtain ⟨targets, innermost, rfl⟩ := Option.map_eq_some_iff.1 found
  obtain ⟨frame, first, innermost⟩ := Option.bind_eq_some_iff.1 innermost
  obtain ⟨leave, again⟩ := loopIn frame targets first innermost
  cases jump
  · exact leave
  · exact again

end LoopIn

namespace Builder

/-! ### What is spared -/

/-- There is a function being built, and the cursor is at one of its open blocks if anywhere. -/
structure AtWork (builder : Builder) : Prop where
  current : ∃ func, builder.current = some func ∧
    builder.target.function? func = some builder.body
  cursor : ∀ cursor, builder.cursor = some cursor →
    builder.current = some cursor.func ∧ builder.Open cursor.block
  started : builder.body.blocks.isEmpty = false

/-- The names that were handed out. -/
def Spent (builder : Builder) : ValueName → Prop
  | .temp number => number < builder.nextTemp
  | .named text => text ∈ builder.usedNames

/-- What became of the function that was built at `base`, when control may still be led to the
blocks that are awaited. -/
structure Spares (awaited : BlockId → Prop) (base now : Builder) : Prop where
  work : now.AtWork
  current : now.current = base.current
  spent : ∀ name, base.Spent name → now.Spent name
  blocks : ∀ id, base.Has id → now.Has id
  exits : ∀ id terminator, base.body.exit? id = some terminator →
    now.body.exit? id = some terminator
  edges : ∀ source target, base.Has target → ¬ awaited target →
    now.body.Precedes source target → base.body.Precedes source target
  code : ∀ id inst, base.Spent inst.name → inst ∈ now.body.code id → inst ∈ base.body.code id
  stays : ∀ id inst, inst.op.isLoad = false → inst ∈ base.body.code id → inst ∈ now.body.code id

variable {awaited awaited' : BlockId → Prop} {base now later : Builder} {func : FuncId}
  {id : BlockId}

theorem AtWork.found (work : now.AtWork) (current : now.current = some func) :
    now.target.function? func = some now.body := by
  obtain ⟨func', current', found⟩ := work.current
  cases current.symm.trans current'
  exact found

/-- A change of the function being built. -/
theorem AtWork.changed (work : now.AtWork) (later : Builder) (change : Function → Function)
    (current : now.current = some func) (same : later.current = now.current)
    (modified : later.target.functions = now.target.functions.modify func.index change) :
    later.target.function? func = some (change now.body) ∧ later.body = change now.body := by
  have found : later.target.function? func = some (change now.body) := by
    rw [Module.function?_modify modified, if_pos rfl, work.found current, Option.map_some]
  exact ⟨found, body_of_found (same.trans current) found⟩

namespace Spares

theorem refl (work : now.AtWork) : Spares awaited now now :=
  ⟨work, rfl, fun _ => id, fun _ => id, fun _ _ => id, fun _ _ _ _ => id, fun _ _ _ => id,
    fun _ _ _ => id⟩

/-- Blocks that are awaited later on only count when they were there before. -/
theorem trans (first : Spares awaited base now) (second : Spares awaited' now later)
    (covered : ∀ id, base.Has id → awaited' id → awaited id) : Spares awaited base later where
  work := second.work
  current := second.current.trans first.current
  spent name spent := second.spent name (first.spent name spent)
  blocks id found := second.blocks id (first.blocks id found)
  exits id terminator closed := second.exits id terminator (first.exits id terminator closed)
  edges source target found free precedes := first.edges source target found free
    (second.edges source target (first.blocks target found)
      (fun waits => free (covered target found waits)) precedes)
  code id inst spent member :=
    first.code id inst spent (second.code id inst (first.spent _ spent) member)
  stays id inst kept member := second.stays id inst kept (first.stays id inst kept member)

theorem mono (spares : Spares awaited base now)
    (weaker : ∀ id, base.Has id → awaited id → awaited' id) : Spares awaited' base now :=
  { spares with edges := fun source target found free =>
      spares.edges source target found fun waits => free (weaker target found waits) }

/-! ### Steps -/

/-- A change that leaves the function being built alone. -/
theorem besides (spares : Spares awaited base now) (current : later.current = now.current)
    (cursor : later.cursor = now.cursor) (spent : ∀ name, now.Spent name → later.Spent name)
    (kept : ∀ func, now.current = some func →
      later.target.function? func = now.target.function? func) : Spares awaited base later := by
  obtain ⟨func, here, found⟩ := spares.work.current
  have stored := (kept func here).trans found
  have body : later.body = now.body := body_of_found (current.trans here) stored
  refine ⟨⟨⟨func, current.trans here, by rw [body, stored]⟩, fun position positioned => ?_, ?_⟩,
    current.trans spares.current, fun name used => spent name (spares.spent name used),
    fun id found => ?_, ?_, ?_, ?_, ?_⟩
  · rw [cursor] at positioned
    rw [current, Open, Has, body]
    exact spares.work.cursor position positioned
  · rw [body]
    exact spares.work.started
  · rw [Has, body]
    exact spares.blocks id found
  · rw [body]
    exact spares.exits
  · rw [body]
    exact spares.edges
  · rw [body]
    exact spares.code
  · rw [body]
    exact spares.stays

/-- A change of the code of one block, which may drop loads and add new instructions. -/
theorem rewrite (spares : Spares awaited base now) (change : Block → Block)
    (here : now.current = some func)
    (closed : ∀ block, (change block).terminator = block.terminator)
    (adds : ∀ block inst, inst ∈ (change block).insts.toList →
      inst ∈ block.insts.toList ∨ ¬ now.Spent inst.name)
    (leaves : ∀ block inst, now.body.block? id = some block → inst.op.isLoad = false →
      inst ∈ block.insts.toList → inst ∈ (change block).insts.toList)
    (current : later.current = now.current) (cursor : later.cursor = now.cursor)
    (spent : ∀ name, now.Spent name → later.Spent name)
    (target : later.target = now.target.modifyBlock func id change) :
    Spares awaited base later := by
  obtain ⟨stored, body⟩ := spares.work.changed later
    (fun function => function.modifyBlock id change) here current (congrArg (·.functions) target)
  have exit : ∀ other, later.body.exit? other = now.body.exit? other := fun other => by
    rw [body, Function.exit?_modifyBlock_of_same _ _ _ closed]
  have has : ∀ other, later.Has other ↔ now.Has other := fun other => by
    rw [Has, body, Function.isSome_block?_modifyBlock, Has]
  refine ⟨⟨⟨func, current.trans here, by rw [body, stored]⟩, fun position positioned => ?_, ?_⟩,
    current.trans spares.current, fun name used => spent name (spares.spent name used),
    fun other found => (has other).2 (spares.blocks other found), fun other terminator => ?_,
    fun source target => ?_, fun other inst used member => ?_, fun other inst kept member => ?_⟩
  · rw [cursor] at positioned
    rw [current, Open, has, exit]
    exact spares.work.cursor position positioned
  · rw [body]
    exact started_modifyBlock spares.work.started
  · rw [exit]
    exact spares.exits other terminator
  · rw [Function.Precedes, exit]
    exact spares.edges source target
  · refine spares.code other inst used ?_
    rw [body, Function.code_modifyBlock] at member
    split_ifs at member with same
    · cases found : now.body.block? other with
      | none =>
        rw [found] at member
        cases member
      | some block =>
        rw [found] at member
        rw [Function.code_of_block? found]
        exact (adds block inst member).resolve_right fun new => new (spares.spent _ used)
    · exact member
  · have member := spares.stays other inst kept member
    rw [body, Function.code_modifyBlock]
    split_ifs with same
    · subst same
      cases found : now.body.block? other with
      | none =>
        rw [Function.code, found] at member
        cases member
      | some block =>
        rw [Function.code_of_block? found] at member
        exact leaves block inst found kept member
    · exact member

/-- A new instruction of a block. -/
theorem append (spares : Spares awaited base now) {inst : Instruction}
    (here : now.current = some func) (fresh : ¬ now.Spent inst.name)
    (current : later.current = now.current) (cursor : later.cursor = now.cursor)
    (spent : ∀ name, now.Spent name → later.Spent name)
    (target : later.target = now.target.modifyBlock func id fun found => found.append inst) :
    Spares awaited base later := by
  refine spares.rewrite (fun found => found.append inst) here (fun _ => rfl)
    (fun block other member => ?_) (fun block other _ _ member => ?_) current cursor spent target
  · rw [Function.insts_append] at member
    rcases List.mem_append.1 member with old | new
    · exact .inl old
    · rw [List.mem_singleton.1 new]
      exact .inr fresh
  · rw [Function.insts_append]
    exact List.mem_append_left _ member

theorem emit (spares : Spares awaited base now) (op : Operation) (ty : Ty) :
    Returns (Build.emitTemp op ty) now fun _ => Spares awaited base := by
  refine Build.returns_emitTemp fun cursor positioned _ => ?_
  refine spares.append (spares.work.cursor cursor positioned).1 ?_ rfl rfl (fun name used => ?_) rfl
  · exact Nat.lt_irrefl now.nextTemp
  · cases name with
    | temp number => exact Nat.lt_succ_of_lt used
    | named text => exact used

theorem reserve (spares : Spares awaited base now) (ty : Ty) (variableName : Option String) :
    Returns (Build.alloca ty variableName) now fun _ => Spares awaited base := by
  refine Build.returns_alloca fun func name start here named => ?_
  have same : start.target.modifyFunction func Function.withEntry = now.target := by
    rw [named.target]
    refine Module.modifyFunction_of_same (spares.work.found here) ?_
    rw [Function.withEntry, spares.work.started]
    rfl
  refine spares.rewrite (fun found =>
    found.insert start.slotCount ⟨name, .ptr ty true, .alloca ty⟩) here (fun _ => rfl)
    (fun block inst member => ?_) (fun block inst _ _ member => ?_) named.current named.cursor
    (fun other used => ?_) (by rw [← same])
  · rw [Function.insts_insert] at member
    rcases List.mem_append.1 member with before | behind
    · exact .inl (List.mem_of_mem_take before)
    · rcases List.mem_cons.1 behind with rfl | after
      · right
        rcases named.fresh with ⟨number, later, rfl⟩ | ⟨text, unused, rfl⟩
        · exact Nat.not_lt.2 later
        · exact unused
      · exact .inl (List.mem_of_mem_drop after)
  · rw [Function.insts_insert, List.mem_append, List.mem_cons]
    rw [← List.take_append_drop start.slotCount block.insts.toList] at member
    exact (List.mem_append.1 member).imp_right .inr
  · cases other with
    | temp number => exact Nat.lt_of_lt_of_le used named.temps
    | named text => exact named.names text used

theorem retarget (spares : Spares awaited base now) {target : Module}
    (declares : now.target.Declares target) : Spares awaited base { now with target } :=
  spares.besides rfl rfl (fun _ => id) fun func here => by
    rw [spares.work.found here]
    exact declares.kept _ _ (spares.work.found here)

theorem declare (spares : Spares awaited base now) (name : String) (params : List Ir.Param)
    (ret : Ty) :
    Returns (Build.declare fun target => target.declareFunction name params ret) now
      fun _ => Spares awaited base :=
  Build.returns_declare fun _ _ declared =>
    spares.retarget (Module.declareFunction_spec declared).1

theorem store (spares : Spares awaited base now) (address value : Value) :
    Returns (Build.store address value) now fun _ => Spares awaited base := by
  refine Build.returns_store spares (fun spares _ => spares.emit _ _)
    (fun spares => spares.declare _ _ _) fun {cursor position origin} source => ?_
  obtain ⟨name, _, function, block, _, _, _, positioned, stored, found, loaded⟩ :=
    copySource?_spec source
  have here := (spares.work.cursor cursor positioned).1
  cases stored.symm.trans (spares.work.found here)
  refine spares.rewrite (fun found => found.remove position) here (fun _ => rfl)
    (fun other inst member => ?_) (fun other inst found' kept member => ?_) rfl rfl (fun _ => id) rfl
  · rw [Function.insts_remove] at member
    exact .inl (List.mem_of_mem_eraseIdx member)
  · cases found.symm.trans found'
    obtain ⟨later, ty, earlier, split, length, _⟩ := findLoad?_spec loaded
    have code : block.insts.toList = earlier.reverse ++ ⟨name, ty, .load origin⟩ :: later.reverse := by
      rw [← List.reverse_reverse block.insts.toList, split]
      simp
    have dropped : (block.remove position).insts.toList = earlier.reverse ++ later.reverse := by
      rw [Function.insts_remove, code, ← length, ← List.length_reverse,
        List.eraseIdx_append_of_length_le le_rfl, Nat.sub_self, List.eraseIdx_cons_zero]
    rw [code, List.mem_append, List.mem_cons] at member
    rw [dropped, List.mem_append]
    rcases member with before | rfl | behind
    · exact .inl before
    · cases kept
    · exact .inr behind

theorem pin (spares : Spares awaited base now) (value : Value) :
    Returns (Build.pin value) now fun _ => Spares awaited base :=
  Build.returns_pin fun _ => spares.besides rfl rfl (fun _ => id) fun _ _ => rfl

/-- A new block was not there before, and it is from now on. -/
theorem newBlock (spares : Spares awaited base now) (hint : String) :
    Returns (Build.newBlock hint) now fun block after =>
      Spares awaited base after ∧ ¬ now.Has block ∧ after.Has block := by
  refine Build.returns_newBlock fun func function here stored => ?_
  cases stored.symm.trans (spares.work.found here)
  have started := spares.work.started
  obtain ⟨stored', body⟩ := spares.work.changed { now with
    target := now.target.modifyFunction func fun function => function.addBlock hint }
    (fun function => function.addBlock hint) here rfl rfl
  have has : ∀ other, now.Has other → other ≠ now.body.nextBlock := by
    rintro other found rfl
    rw [Has, Function.block?_nextBlock started] at found
    cases found
  have exit : ∀ other, (now.body.addBlock hint).exit? other = now.body.exit? other :=
    Function.exit?_addBlock started hint
  refine ⟨⟨⟨⟨func, here, by rw [body, stored']⟩, fun position positioned => ?_, ?_⟩,
    spares.current, spares.spent, fun other found => ?_, fun other terminator => ?_,
    fun source target => ?_, fun other inst used member => ?_, fun other inst kept member => ?_⟩,
    fun found => has _ found rfl, ?_⟩
  · obtain ⟨inside, found, opened⟩ := spares.work.cursor position positioned
    refine ⟨inside, ?_, ?_⟩
    · rw [Has, body, Function.block?_addBlock started, if_neg (has _ found)]
      exact found
    · rw [body, exit, opened]
  · rw [body, Function.isEmpty_addBlock]
  · have found := spares.blocks other found
    rw [Has, body, Function.block?_addBlock started, if_neg (has _ found)]
    exact found
  · rw [body, exit]
    exact spares.exits other terminator
  · rw [body, Function.Precedes, exit]
    exact spares.edges source target
  · rw [body, Function.code_addBlock started] at member
    exact spares.code other inst used member
  · rw [body, Function.code_addBlock started]
    exact spares.stays other inst kept member
  · rw [Has, body, Function.block?_addBlock started, if_pos rfl]
    rfl

theorem terminate (spares : Spares awaited base now) {terminator : Terminator}
    (allowed : ∀ target ∈ terminator.successors, base.Has target → awaited target) :
    Returns (Build.terminate terminator) now fun _ => Spares awaited base := by
  refine Build.returns_terminate fun cursor positioned _ => ?_
  obtain ⟨here, has, opened⟩ := spares.work.cursor cursor positioned
  obtain ⟨block, found⟩ := Option.isSome_iff_exists.1 has
  obtain ⟨stored, body⟩ := spares.work.changed { now with
    cursor := none
    target := now.target.modifyBlock cursor.func cursor.block fun found =>
      found.terminate terminator }
    (fun function => function.modifyBlock cursor.block fun found => found.terminate terminator)
    here rfl rfl
  refine ⟨⟨⟨cursor.func, here, by rw [body, stored]⟩, nofun, ?_⟩, spares.current, spares.spent,
    fun other found => ?_, fun other terminator closed => ?_,
    fun source target found' free precedes => ?_, fun other inst used member => ?_,
    fun other inst kept member => ?_⟩
  · rw [body]
    exact started_modifyBlock spares.work.started
  · rw [Has, body, Function.isSome_block?_modifyBlock]
    exact spares.blocks other found
  · have closed := spares.exits other terminator closed
    rw [body, Function.exit?_terminate found, if_neg, closed]
    rintro rfl
    rw [opened] at closed
    cases closed
  · rw [body, Function.precedes_terminate found opened] at precedes
    rcases precedes with old | ⟨_, new⟩
    · exact spares.edges source target found' free old
    · exact absurd (allowed target new found') free
  · rw [body, Function.code_terminate] at member
    exact spares.code other inst used member
  · rw [body, Function.code_terminate]
    exact spares.stays other inst kept member

theorem positionAt (spares : Spares awaited base now) (here : base.current = some func) :
    Returns (Build.positionAt func id) now fun _ => Spares awaited base := by
  refine Build.returns_positionAt fun target same opened => ?_
  have here := spares.current.trans here
  have found := spares.work.found here
  rw [Module.modifyFunction_of_same found (by
    rw [Function.withEntry, spares.work.started]
    rfl)] at same
  subst same
  rw [enter, if_pos here]
  obtain ⟨function, block, stored, found', closed⟩ := Module.checkOpen_ok opened
  cases stored.symm.trans found
  refine ⟨⟨⟨func, here, found⟩, fun cursor positioned => ?_, spares.work.started⟩, spares.current,
    spares.spent, spares.blocks, spares.exits, spares.edges, spares.code, spares.stays⟩
  cases positioned
  refine ⟨here, ?_, ?_⟩
  · show (now.body.block? id).isSome = true
    rw [found']
    rfl
  · show now.body.exit? id = none
    rw [Function.exit?_of_block? found', closed]

end Spares

end Builder

/-! ### Blaming no jump -/

theorem tame_mapType (source : Source) (ty : TypeId) (state : TypeState) :
    Ends (mapType source ty) state (fun _ _ => True) fun cause _ => cause.isStray = false := by
  have mindful : Mindful source (fun _ => True) fun cause => cause.isStray = false :=
    ⟨fun _ _ => trivial, fun _ _ => trivial, rfl, fun _ => rfl⟩
  exact mindful.heeds_mapType ty state trivial

/-! ### The regime -/

/-- The rules of a run that spares what was built at `base`. -/
def Regime.sparing (excused : Error → Prop) (awaited : BlockId → Prop) (base : Builder) :
    Regime where
  holds builder _ := Builder.Spares awaited base builder
  excused := excused
  frames := LoopIn fun id => base.Has id → awaited id
  mine func := base.current = some func
  own _ := True
  free id := base.Has id → awaited id
  mapped _ _ := True
  yields _ _ := True
  joins _ _ := True
  answers _ := True
  returns _ := True

theorem Regime.sparing.steady {excused : Error → Prop} {source : Source}
    (pardons : ∀ cause : Error, cause.isPlain = true → excused cause)
    (maps : ∀ ty state, Ends (mapType source ty) state (fun _ _ => True) fun cause _ =>
      excused cause) (awaited : BlockId → Prop) (base : Builder) :
    (Regime.sparing excused awaited base).Steady source where
  pardons := pardons
  current spares current := spares.current.symm.trans current
  here _ _ := trivial
  emits spares _ := spares.emit _ _
  reserves spares := spares.reserve _ _
  stores spares := spares.store _ _
  pins spares := spares.pin _
  opens spares := (spares.newBlock _).mono fun _ _ ⟨kept, new, _⟩ =>
    ⟨kept, trivial, fun found => absurd (spares.blocks _ found) new⟩
  moves spares mine _ := spares.positionAt mine
  closes spares free _ := spares.terminate free
  declares spares := spares.declare _ _ _
  defines spares := Build.returns_declare fun _ _ declared =>
    spares.retarget (.of_functions (Module.declareGlobal_elsewhere declared).2)
  maps {builder memo} ty spares := by
    have only := (ensures_mapTypeWithin source source.typeDepth ty ⟨memo, builder.target⟩).ends
    exact (only.and (maps ty ⟨memo, builder.target⟩)).mono
      (fun _ _ kept => ⟨spares.retarget (.of_functions kept.1.functions), trivial⟩)
      fun _ _ ended => ended.2
  loops {env targets} leave again loopIn :=
    (show LoopIn (fun id => base.Has id → awaited id) env.frames from loopIn).pushLoop leave again
  targets frames found := LoopIn.target frames found
  answers _ _ := trivial

/-- The rules for what a construct does between its calls. -/
@[reducible] def Regime.between (awaited : BlockId → Prop) (base : Builder) : Regime :=
  .sparing (fun cause => cause.isStray = false) awaited base

theorem Regime.between.steady (source : Source) (awaited : BlockId → Prop) (base : Builder) :
    (Regime.between awaited base).Steady source :=
  Regime.sparing.steady (fun _ => Error.isStray_of_isPlain) (tame_mapType source) awaited base

end TreeLowering.Lowering
