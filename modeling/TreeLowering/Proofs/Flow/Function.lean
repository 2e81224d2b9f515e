/-
This file proves that a body is lowered to a complete function. The body starts in an entry block of
its own, with nothing set and no block waiting. Lowering keeps the waiting blocks as they are, so in
the end none waits, and the last one is closed by the return.
-/

import TreeLowering.Proofs.Flow.Expr

namespace TreeLowering.Ir

/-- What a function is once its body has been lowered. -/
structure Function.Finished (function : Function) : Prop where
  labelled : function.Labelled
  certified : ∃ avail, Certified function avail
  closed : ∀ id block, function.block? id = some block → block.isTerminated = true

end TreeLowering.Ir

namespace TreeLowering.Lowering

open TreeLowering.Ir TreeLowering.Tree Moment

/-! ### The first moment -/

theorem block?_withEntry {function : Function} (bare : function.isDeclaration = true)
    (id : BlockId) : function.withEntry.block? id =
      if id = Function.entryId then some (.fresh Function.entryId "entry") else none := by
  rw [Function.isDeclaration] at bare
  rw [Function.withEntry, if_pos bare, Function.block?]
  obtain ⟨index⟩ := id
  cases index with
  | zero => rfl
  | succ index => rfl

theorem code_withEntry {function : Function} (bare : function.isDeclaration = true)
    (id : BlockId) : function.withEntry.code id = [] := by
  rw [Function.code, block?_withEntry bare]
  split
  · next block found =>
    split_ifs at found
    cases found
    rfl
  · rfl

theorem exit?_withEntry {function : Function} (bare : function.isDeclaration = true)
    (id : BlockId) : function.withEntry.exit? id = none := by
  rw [Function.exit?, block?_withEntry bare]
  split_ifs <;> rfl

theorem labelled_withEntry {function : Function} (bare : function.isDeclaration = true) :
    function.withEntry.Labelled := by
  refine ⟨⟨.fresh Function.entryId "entry", ?_, rfl⟩, fun id block found => ?_,
    fun id block found inner => ?_⟩
  · rw [block?_withEntry bare, if_pos rfl]
  · rw [block?_withEntry bare] at found
    split_ifs at found with same
    cases found
    exact same.symm
  · rw [block?_withEntry bare, if_neg inner] at found
    cases found

/-- Where nothing is set, nothing has to be certified. -/
theorem certified_withEntry {function : Function} (bare : function.isDeclaration = true) :
    Certified function.withEntry fun _ _ => False := by
  have none : ∀ id target, ¬ function.withEntry.Precedes id target := by
    rintro id target ⟨terminator, found, _⟩
    rw [exit?_withEntry bare] at found
    cases found
  refine ⟨fun id => ?_, fun id id' inst member => ?_, fun id => ?_, fun id terminator found => ?_,
    fun id target edge => absurd edge (none id target),
    fun id target edge => absurd edge (none id target), fun _ _ => False.elim, fun _ => id,
    fun id inst incoming member => ?_⟩
  · rw [code_withEntry bare]
    exact List.nodup_nil
  · rw [code_withEntry bare] at member
    cases member
  · rw [code_withEntry bare]
    trivial
  · rw [exit?_withEntry bare] at found
    cases found
  · rw [code_withEntry bare] at member
    cases member

/-- The moment at which the body of a function begins. -/
def Moment.first (builder : Builder) (func : FuncId) : Moment :=
  ⟨{ Builder.enter { builder with
      target := builder.target.modifyFunction func Function.withEntry Function.name_withEntry } func with
      cursor := some ⟨func, Function.entryId⟩ }, fun _ _ => False⟩

section First

variable {builder : Builder} {func : FuncId} {function : Function}
  (away : builder.current ≠ some func) (found : builder.target.function? func = some function)

include away found

theorem first_builder : (Moment.first builder func).builder =
    { builder with
      target := builder.target.modifyFunction func Function.withEntry
      cursor := some ⟨func, Function.entryId⟩
      current := some func
      nextTemp := 0
      slotCount := Builder.leadingSlots function.withEntry
      usedNames := function.withEntry.params.map Param.name
      nextSuffix := []
      pinned := [] } := by
  have stored : (builder.target.modifyFunction func Function.withEntry).function? func =
      some function.withEntry := by
    rw [Module.function?_modifyFunction, if_pos rfl, found]
    rfl
  simp only [Moment.first, Builder.enter, if_neg away, stored]

theorem first_body : (Moment.first builder func).body = function.withEntry := by
  rw [Moment.body, first_builder away found]
  simp only [Option.bind_some, Module.function?_modifyFunction, if_pos, found, Option.map_some,
    Option.getD_some]

theorem first_valid (bare : function.isDeclaration = true) : (Moment.first builder func).Valid := by
  have body := first_body away found
  have start := first_builder away found
  have unnamed : ∀ name, ¬ (Moment.first builder func).body.Names name := by
    rintro name ⟨ty, id, inst, member, _⟩
    rw [body, code_withEntry bare] at member
    cases member
  refine ⟨⟨func, by rw [start], ?_⟩, fun cursor positioned => ?_, ?_, ?_,
    ⟨[], [], ?_, ?_, List.forall_mem_nil _⟩, fun number named => absurd named (unnamed _),
    fun text named => absurd named (unnamed _)⟩
  · rw [body, start, Module.function?_modifyFunction, if_pos rfl, found]
    rfl
  · rw [start] at positioned
    cases positioned
    refine ⟨by rw [start], ?_, ?_⟩
    · rw [Has, body, block?_withEntry bare, if_pos rfl]
      rfl
    · rw [body, exit?_withEntry bare]
  · rw [body]
    exact labelled_withEntry bare
  · rw [body]
    exact certified_withEntry bare
  · rw [body]
    exact code_withEntry bare _
  · rw [start, Builder.leadingSlots, block?_withEntry bare, if_pos rfl]
    rfl

end First

/-! ### Parameters -/

section Body

variable {now : Moment} {context : Context}

/-- The operand that reads a parameter is a value anywhere in the function. -/
theorem produced_param {base : Moment} {position : Nat} {value : Value}
    (found : now.body.paramValue? position = some value) : Produced base now value := by
  obtain ⟨param, listed, rfl⟩ := Option.map_eq_some_iff.1 found
  refine ⟨?_, fun name ty same => by cases same⟩
  obtain ⟨bound, rfl⟩ := List.getElem?_eq_some_iff.1 listed
  exact List.getElem_mem bound

theorem Standing.afterParam {source : Source} {taken : List Name} {param : Tree.Param}
    {value : Value} {β : Type} {next : Unit → LowerM β} {post : β → Context → Prop}
    (standing : Standing now now context.env context) (settled : now.Settled value)
    (rest : ∀ later after, Standing later later after.env after → Since now later →
      after.env.leaveScope = context.env.leaveScope → Ensures (next ()) after post) :
    Ensures (bindParam source taken param value >>= next) context post := by
  unfold bindParam
  split_ifs
  · unfold Lowering.spill
    simp only [bind_assoc]
    refine standing.afterSlot fun address second standing₂ since slot => ?_
    refine standing₂.afterStore slot (settled.produced.later since standing₂.live)
      fun third standing₃ kept => ?_
    rw [pure_bind, ensures_bind, ensures_modifyEnv]
    have usable : third.EnvOk (context.env.bind param.name (.slot address value.ty param.mutable)) :=
      standing₃.usable.bind (kept address slot)
    exact rest third _ ⟨rfl, rfl, standing₃.valid, usable, standing₃.valid, standing₃.live,
      .refl third⟩ standing₃.since (Env.leaveScope_bind _ _ _)
  · rw [ensures_bind, ensures_modifyEnv]
    have usable : now.EnvOk (context.env.bind param.name (.param value)) := standing.bound.bind settled
    exact rest now _ ⟨standing.building, rfl, standing.valid, usable, standing.valid, standing.live,
      .refl now⟩ (.refl now) (Env.leaveScope_bind _ _ _)

/-- Parameters are bound in the scope of the function, and nothing closes the entry block. -/
theorem Standing.afterParams {source : Source} {taken : List Name} {func : FuncId}
    {params : List Tree.Param} {position : Nat} {β : Type} {next : Unit → LowerM β}
    {post : β → Context → Prop} (standing : Standing now now context.env context)
    (current : now.builder.current = some func)
    (rest : ∀ later after, Standing later later after.env after → Since now later →
      after.env.leaveScope = context.env.leaveScope → Ensures (next ()) after post) :
    Ensures (bindParams source taken func position params >>= next) context post := by
  induction params generalizing now context position with
  | nil => exact rest now context standing (.refl now) rfl
  | cons param params inductionHypothesis =>
    unfold bindParams
    rw [bind_assoc, ensures_bind, ensures_build, standing.building,
      ensures_ask (standing.valid.getFunction current), ← standing.building]
    cases found : now.body.paramValue? position with
    | none => rfl
    | some value =>
      have settled : now.Settled value := by
        obtain ⟨param, listed, rfl⟩ := Option.map_eq_some_iff.1 found
        exact .of_constant rfl (@produced_param now now _ _ found).reads
      rw [bind_assoc]
      refine standing.afterParam settled fun second after standing₂ since₂ outer => ?_
      refine inductionHypothesis standing₂ (since₂.current.trans current)
        fun third last standing₃ since₃ outer' => ?_
      exact rest third last standing₃ (since₂.trans standing₂.live since₃) (outer'.trans outer)

/-! ### Bodies -/

/-- When a body is done, no block is open that was not open before it. -/
theorem ensures_body {lowering : LowerM Value} {ret : Ty}
    (sound : Ensures lowering context (Yields now context.env (Produced now))) :
    Ensures (Lowering.thenLive () lowering (finishBody ret)) context
      fun _ after => ∃ last : Moment, last.builder = after.builder ∧ last.Valid ∧ Since now last ∧
        last.here? = none ∧ after.env = context.env := by
  rw [ensures_thenLive]
  refine sound.mono ?_
  rintro value after ⟨second, same, valid, since, kept, holds⟩
  by_cases live : after.builder.cursor.isSome = true
  · rw [if_pos live]
    rw [← same] at live
    obtain ⟨id, here⟩ := live_iff.1 live
    have usable := (holds live).usable valid since.toGrows
    unfold finishBody
    rw [ensures_build, ← same]
    refine Ensures.mono (blockClosed since.toGrows valid here (fun operand member => ?_)
      fun _ target => by cases target) ?_
    · split_ifs at member
      · cases member
      · rw [List.mem_singleton.1 member]
        refine ⟨retype_readable ret usable.reads, fun name named => ?_⟩
        cases found : retype ret value <;> rw [found] at named <;> cases named
        exact usable.own name (by rw [retype_reg found]; rfl)
    · rintro _ _ ⟨last, rfl, closed⟩
      exact ⟨last, rfl, closed.valid, closed.since since, closed.here, kept⟩
  · rw [if_neg live]
    refine ⟨second, same, valid, since, here_of_dead fun alive => live ?_, kept⟩
    rw [← same]
    exact alive

end Body

/-- Where nothing waits and the cursor is nowhere, the function is complete. -/
theorem finished_of_done {now : Moment} (valid : now.Valid) (done : ∀ id, ¬ now.Waiting id)
    (nowhere : now.here? = none) : now.body.Finished := by
  refine ⟨valid.labelled, ⟨now.avail, valid.certified⟩, fun id block found => ?_⟩
  cases closed : block.isTerminated with
  | true => rfl
  | false =>
    refine absurd ⟨⟨?_, ?_⟩, ?_⟩ (done id)
    · rw [Has, found]
      rfl
    · rw [Function.exit?_of_block? found]
      exact Option.isNone_iff_eq_none.1 (by simpa [Block.isTerminated] using closed)
    · rw [nowhere]
      simp

/-! ### Functions -/

/-- The state between two functions: every function with blocks is complete. -/
structure Resting (context : Context) : Prop where
  finished : ∀ func function, context.builder.target.function? func = some function →
    function.isDeclaration = false → function.Finished
  current : ∀ func, context.builder.current = some func →
    ∃ function, context.builder.target.function? func = some function ∧
      function.isDeclaration = false
  env : context.env = .empty

/-- The function at `func` was given a body, and other functions stay as they are. -/
structure GivesBody (func : FuncId) (before after : Module) : Prop where
  beside : Module.Beside func before after
  body : ∀ function, before.function? func = some function → ∃ function',
    after.function? func = some function' ∧ function'.name = function.name ∧
      function'.isDeclaration = false

/-- A function without blocks is not the one that was built last. -/
theorem Resting.away {context : Context} {func : FuncId} {function : Function}
    (resting : Resting context) (found : context.builder.target.function? func = some function)
    (bare : function.isDeclaration = true) : context.builder.current ≠ some func := by
  intro current
  obtain ⟨function', found', full⟩ := resting.current func current
  rw [found] at found'
  cases found'
  rw [bare] at full
  cases full

/-- What follows when a body is done: the function is complete, and so are the others. -/
theorem Resting.after {context after : Context} {func : FuncId} {function : Function}
    (resting : Resting context) (found : context.builder.target.function? func = some function)
    (bare : function.isDeclaration = true) {last : Moment} (valid : last.Valid)
    (since : Since (Moment.first context.builder func) last) (nowhere : last.here? = none)
    (same : last.builder = after.builder) (env : after.env = .empty) :
    Resting after ∧ GivesBody func context.builder.target after.builder.target := by
  have away := resting.away found bare
  have start := first_builder away found
  have body := first_body away found
  have current : last.builder.current = some func := since.current.trans (by rw [start])
  obtain ⟨func', current', stored⟩ := valid.current
  cases current.symm.trans current'
  have finished : last.body.Finished := by
    refine finished_of_done valid (fun id waiting => ?_) nowhere
    obtain ⟨⟨has, _⟩, elsewhere⟩ := (since.waiting id).1 waiting
    rw [Has, body, block?_withEntry bare] at has
    split_ifs at has with entry
    · rw [here?, start, entry] at elsewhere
      exact elsewhere rfl
    · cases has
  have full : last.body.isDeclaration = false := finished.labelled.started
  have beside : Module.Beside func context.builder.target last.builder.target := by
    refine Module.Beside.trans ?_ (since.beside func (by rw [start]))
    rw [start]
    exact Module.Beside.modify rfl
  rw [same] at stored beside
  refine ⟨⟨fun other function' found' full' => ?_, fun other current' => ?_, env⟩,
    beside, fun function' found' => ⟨last.body, stored, ?_, full⟩⟩
  · by_cases here : other = func
    · rw [here, stored] at found'
      cases found'
      exact finished
    · cases old : context.builder.target.function? other with
      | none =>
        rw [beside.added other here old function' found'] at full'
        cases full'
      | some function'' =>
        rw [beside.kept other here function'' old] at found'
        cases found'
        exact resting.finished other function' old full'
  · rw [← same, current] at current'
    cases current'
    exact ⟨last.body, stored, full⟩
  · rw [found] at found'
    cases found'
    rw [since.name, body, Function.name_withEntry]

/-- A function whose body is lowered by `lower`, given the names that must live in memory. -/
def lowerFunctionBy (lower : List Name → ExprId → LowerM Value) (source : Source)
    (decl : FunctionDecl) (func : FuncId) : LowerM Unit := do
  match decl.body with
  | none => return ()
  | some body =>
    let entry ← build (Build.ensureEntry func)
    let function ← build (Build.ask fun target => target.getFunction func)
    build (Build.positionAt func entry)
    let taken := source.program.addressTaken body
    inFunction function.ret do
      inScope decl.scope do
        bindParams source taken func 0 decl.params
        thenLive () (lower taken body) (finishBody function.ret)

theorem lowerFunctionBy_lowerExpr (source : Source) :
    lowerFunctionBy (lowerExpr source) source = lowerFunction source := rfl

/-- What is asked of the way bodies are lowered. -/
def SoundBodies (lower : List Name → ExprId → LowerM Value) : Prop :=
  ∀ {now context}, Standing now now context.env context → ∀ taken body,
    Ensures (lower taken body) context (Yields now context.env (Produced now))

theorem soundBodies_lowerExpr (source : Source) : SoundBodies (lowerExpr source) :=
  fun standing taken body => (within_sound source taken source.exprDepth).expr standing body

/-- A body is lowered from the first moment of its function on. -/
theorem Resting.begin {lower : List Name → ExprId → LowerM Value} {context : Context}
    {source : Source} {decl : FunctionDecl} {func : FuncId} {function : Function} {body : ExprId}
    {post : Unit → Context → Prop} (resting : Resting context)
    (found : context.builder.target.function? func = some function)
    (bare : function.isDeclaration = true) (given : decl.body = some body)
    (ensured : Ensures (inFunction function.ret do
      inScope decl.scope do
        bindParams source (source.program.addressTaken body) func 0 decl.params
        thenLive () (lower (source.program.addressTaken body) body) (finishBody function.ret))
      { context with builder := (Moment.first context.builder func).builder } post) :
    Ensures (lowerFunctionBy lower source decl func) context post := by
  have away := resting.away found bare
  have stored : (context.builder.target.modifyFunction func Function.withEntry).function? func =
      some function.withEntry := by
    rw [Module.function?_modifyFunction, if_pos rfl, found]
    rfl
  have started := (labelled_withEntry bare).started
  have valid := first_valid away found bare
  have start := first_builder away found
  have current : (Moment.first context.builder func).builder.current = some func := by rw [start]
  have opened : (context.builder.target.modifyFunction func Function.withEntry).checkOpen func
      Function.entryId = .ok () := by
    have opened := valid.checkOpen current (valid.cursor _ (by rw [start])).2
    rwa [start] at opened
  unfold lowerFunctionBy
  rw [given]
  dsimp only
  unfold Build.ensureEntry
  rw [ensures_bind, ensures_build, ensures_bind, ensures_ask (Module.getFunction_of_found found),
    ensures_bind, ensures_change, ensures_pure, ensures_bind, ensures_build,
    ensures_ask (Module.getFunction_of_found stored), ensures_bind, ensures_build, Build.positionAt,
    ensures_bind, ensures_ensureEntry stored started, ensures_bind, ensures_ask opened,
    ensures_modify, Function.ret_withEntry]
  exact ensured

/-- A body is lowered to a complete function. -/
theorem ensures_lowerFunction {lower : List Name → ExprId → LowerM Value} {context : Context}
    {source : Source} {decl : FunctionDecl} {func : FuncId} {function : Function} {body : ExprId}
    (sound : SoundBodies lower) (resting : Resting context)
    (found : context.builder.target.function? func = some function)
    (bare : function.isDeclaration = true) (given : decl.body = some body) :
    Ensures (lowerFunctionBy lower source decl func) context fun _ after =>
      Resting after ∧ GivesBody func context.builder.target after.builder.target := by
  have away := resting.away found bare
  have valid := first_valid away found bare
  have start := first_builder away found
  have current : (Moment.first context.builder func).builder.current = some func := by rw [start]
  have live : (Moment.first context.builder func).Live := by
    rw [Live, start]
    rfl
  refine resting.begin found bare given ?_
  rw [ensures_inFunction, ensures_inScope]
  have env : Moment.EnvOk (Moment.first context.builder func)
      (context.env.pushFunction function.ret).enterScope := by
    rw [resting.env]
    refine ⟨fun scope member entry inside => ?_, rfl, fun frame first targets inside => ?_⟩
    · rw [List.mem_singleton.1 member] at inside
      cases inside
    · cases first
      cases inside
  refine Standing.afterParams ⟨rfl, rfl, valid, env, valid, live, .refl _⟩ current
    fun second after standing₂ since₂ outer => ?_
  refine (ensures_body (sound standing₂ _ body)).mono ?_
  rintro _ last ⟨third, same, valid₃, since₃, nowhere, kept⟩
  refine resting.after found bare valid₃ (since₂.trans standing₂.live since₃) nowhere same ?_
  change (last.env.leaveScope).popFunction = _
  rw [kept, outer, resting.env]
  rfl

end TreeLowering.Lowering
