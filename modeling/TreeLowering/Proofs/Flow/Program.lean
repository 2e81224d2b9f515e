/-
This file proves that a program is lowered to complete functions, by following the bodies one after
the other. Which functions have a body at some point is known from the declarations that were
lowered up to there, so in the end it is known from the program.
-/

import TreeLowering.Proofs.Flow.Function

namespace TreeLowering.Lowering

open TreeLowering.Ir TreeLowering.Tree

theorem run_bind {σ α β : Type} {action : EStateM Error σ α} {next : α → EStateM Error σ β}
    {state after : σ} {result : α} (returned : action state = .ok result after) :
    (action >>= next) state = next result after := by
  change EStateM.bind action next state = _
  rw [EStateM.bind, returned]

theorem run_bind_error {σ α β : Type} {action : EStateM Error σ α} {next : α → EStateM Error σ β}
    {state after : σ} {cause : Error} (failed : action state = .error cause after) :
    (action >>= next) state = .error cause after := by
  change EStateM.bind action next state = _
  rw [EStateM.bind, failed]

/-- What a step that returned was made of. -/
theorem run_bind_ok {σ α β : Type} {action : EStateM Error σ α} {next : α → EStateM Error σ β}
    {state after : σ} {result : β} (returned : (action >>= next) state = .ok result after) :
    ∃ middle between, action state = .ok middle between ∧ next middle between = .ok result after := by
  cases first : action state with
  | ok middle between =>
    rw [run_bind first] at returned
    exact ⟨middle, between, rfl, returned⟩
  | error cause between =>
    rw [run_bind_error first] at returned
    cases returned

theorem build_ok {α : Type} {action : BuildM α} {context : Context} {result : α} {after : Builder}
    (returned : action context.builder = .ok result after) :
    build action context = .ok result { context with builder := after } := by
  obtain ⟨builder, env, memo, strings, scope⟩ := context
  unfold build
  simp only at returned ⊢
  rw [returned]

theorem build_error {α : Type} {action : BuildM α} {context : Context} {cause : Error}
    {after : Builder} (failed : action context.builder = .error cause after) :
    build action context = .error cause { context with builder := after } := by
  obtain ⟨builder, env, memo, strings, scope⟩ := context
  unfold build
  simp only at failed ⊢
  rw [failed]

/-! ### Declarations -/

/-- Each declared function is found at the position that was returned for it. -/
def Placed (source : Source) (target : Module) (declared : FunctionDecl × FuncId) : Prop :=
  ∃ function, target.function? declared.2 = some function ∧
    function.name = source.names.text declared.1.link

theorem ensures_declareAll (source : Source) (decls : List FunctionDecl) {context : Context} :
    Ensures (decls.mapM fun decl => do return (decl, ← declareFn source decl)) context
      fun declared after => Quietly context after ∧ declared.map Prod.fst = decls ∧
        ∀ pair ∈ declared, Placed source after.builder.target pair := by
  induction decls generalizing context with
  | nil => exact ⟨.refl context, rfl, fun _ member => by cases member⟩
  | cons decl decls inductionHypothesis =>
    rw [List.mapM_cons, ensures_bind, ensures_bind]
    refine (ensures_declareFn source decl).mono fun func first ⟨quietly, function, found, named⟩ => ?_
    rw [ensures_pure, ensures_bind]
    refine inductionHypothesis.mono fun declared after ⟨quietly', decls', placed⟩ => ?_
    refine ⟨quietly.trans quietly', by rw [List.map_cons, decls'], fun pair member => ?_⟩
    rcases List.mem_cons.1 member with rfl | member
    · exact ⟨function, quietly'.declares.kept func function found, named⟩
    · exact placed pair member

/-! ### Bodies -/

/-- A function that has a body cannot be given another one, because its entry block is closed. -/
theorem lowerFunction_full {lower : List Name → ExprId → LowerM Value} {context : Context}
    {source : Source} {decl : FunctionDecl} {func : FuncId} {function : Function} {body : ExprId}
    (resting : Resting context) (found : context.builder.target.function? func = some function)
    (full : function.isDeclaration = false) (given : decl.body = some body) :
    lowerFunctionBy lower source decl func context =
      .error (.ir (.blockTerminated "entry")) context := by
  have finished := resting.finished func function found full
  obtain ⟨entry, stored, named⟩ := finished.labelled.entry
  have same : context.builder.target.modifyFunction func Function.withEntry =
      context.builder.target := by
    refine Module.modifyFunction_of_same found ?_
    rw [Function.withEntry, finished.labelled.started]
    rfl
  have got := Module.getFunction_of_found found
  have read : Build.ask (fun target => target.getFunction func) context.builder =
      .ok function context.builder := by
    rw [Build.ask, got]
  have entered : Build.ensureEntry func context.builder =
      .ok Function.entryId context.builder := by
    rw [Build.ensureEntry, run_bind read]
    change EStateM.Result.ok _ { context.builder with
      target := context.builder.target.modifyFunction func Function.withEntry } = _
    rw [same]
  have closed : context.builder.target.checkOpen func Function.entryId =
      .error (.blockTerminated "entry") := by
    unfold Module.checkOpen Module.getBlock
    rw [got]
    change (do
      let found ← function.getBlock Function.entryId
      if found.isTerminated then throw (Ir.Error.blockTerminated found.label)) = _
    rw [Function.getBlock, stored, ← named]
    change (if entry.isTerminated = true then _ else _) = _
    rw [finished.closed _ _ stored]
    rfl
  have refused : Build.positionAt func Function.entryId context.builder =
      .error (.ir (.blockTerminated "entry")) context.builder := by
    rw [Build.positionAt, run_bind entered]
    refine run_bind_error ?_
    rw [Build.ask, closed]
  unfold lowerFunctionBy
  rw [given]
  dsimp only
  rw [run_bind (build_ok entered), run_bind (build_ok read)]
  exact run_bind_error (build_error refused)

/-- How far a run has come: the bodies of the declarations in `done` are lowered, those of other
declarations in `all` are not. -/
structure Progress (source : Source) (all done : List (FunctionDecl × FuncId))
    (context : Context) : Prop where
  resting : Resting context
  placed : ∀ pair ∈ all, Placed source context.builder.target pair
  bodies : ∀ func function, context.builder.target.function? func = some function →
    (function.isDeclaration = false ↔ ∃ pair ∈ done, pair.2 = func ∧ pair.1.body.isSome = true)

/-- No function is given two bodies. -/
def SingleBodies (declared : List (FunctionDecl × FuncId)) : Prop :=
  declared.Pairwise fun first second =>
    first.1.body.isSome = true → second.1.body.isSome = true → first.2 ≠ second.2

/-- Why a body fails to be lowered: by no misstep, or because its function has a body already. -/
def BodyFailure (declared : List (FunctionDecl × FuncId)) (cause : Error) : Prop :=
  cause.isMisstep = false ∨
    cause = .ir (.blockTerminated "entry") ∧ ¬ SingleBodies declared

section Bodies

variable {lower : List Name → ExprId → LowerM Value} {source : Source}
  {all done : List (FunctionDecl × FuncId)} {context : Context}

/-- A body was lowered into a function that had none. -/
theorem Progress.given {after : Context} {decl : FunctionDecl} {func : FuncId}
    {function : Function} (progress : Progress source all done context)
    (earlier : ∀ pair ∈ done, pair ∈ all)
    (found : context.builder.target.function? func = some function)
    (given : decl.body.isSome = true) (resting : Resting after)
    (gives : GivesBody func context.builder.target after.builder.target) :
    Progress source all (done ++ [(decl, func)]) after := by
  obtain ⟨beside, gives⟩ := gives
  refine ⟨resting, fun pair member => ?_, fun other function' found' => ?_⟩
  · obtain ⟨old, stored, called⟩ := progress.placed pair member
    by_cases here : pair.2 = func
    · rw [here] at stored
      obtain ⟨new, stored', same, _⟩ := gives old stored
      exact ⟨new, here ▸ stored', same.trans called⟩
    · exact ⟨old, beside.kept pair.2 here old stored, called⟩
  · by_cases here : other = func
    · obtain ⟨new, stored', _, full⟩ := gives function found
      rw [here, stored'] at found'
      cases found'
      simp [full, here, given]
    · have others : (∃ pair ∈ done ++ [(decl, func)], pair.2 = other ∧ pair.1.body.isSome = true) ↔
          ∃ pair ∈ done, pair.2 = other ∧ pair.1.body.isSome = true := by
        simp [Ne.symm here]
      rw [others]
      cases old : context.builder.target.function? other with
      | some function'' =>
        rw [beside.kept other here function'' old] at found'
        cases found'
        exact progress.bodies other function' old
      | none =>
        -- a function that was only now added has no body, and no earlier declaration is there
        rw [beside.added other here old function' found']
        refine ⟨fun impossible => (by cases impossible), ?_⟩
        rintro ⟨pair, member, rfl, _⟩
        obtain ⟨function'', stored, _⟩ := progress.placed pair (earlier pair member)
        rw [old] at stored
        cases stored

/-- One more body is lowered. -/
theorem Progress.step {decl : FunctionDecl} {func : FuncId} {rest : List (FunctionDecl × FuncId)}
    (sound : SoundBodies lower) (progress : Progress source all done context)
    (whole : all = done ++ (decl, func) :: rest) :
    Ends (lowerFunctionBy lower source decl func) context
      (fun _ after => Progress source all (done ++ [(decl, func)]) after)
      fun cause _ => BodyFailure all cause := by
  have earlier : ∀ pair ∈ done, pair ∈ all := fun pair member => by
    rw [whole]
    exact List.mem_append_left _ member
  cases body : decl.body with
  | none =>
    have same : lowerFunctionBy lower source decl func context = .ok () context := by
      rw [lowerFunctionBy, body]
      rfl
    unfold Ends
    rw [same]
    refine ⟨progress.resting, progress.placed, fun other function found => ?_⟩
    rw [progress.bodies other function found]
    simp [body]
  | some expr =>
    have given : decl.body.isSome = true := by rw [body]; rfl
    obtain ⟨function, found, named⟩ := progress.placed (decl, func) (by simp [whole])
    cases full : function.isDeclaration with
    | false =>
      unfold Ends
      rw [lowerFunction_full progress.resting found full body]
      obtain ⟨pair, member, same, given'⟩ := (progress.bodies func function found).1 full
      refine .inr ⟨rfl, fun single => ?_⟩
      rw [whole] at single
      exact (List.pairwise_append.1 single).2.2 pair member _ List.mem_cons_self given' given same
    | true =>
      have ensured : Ensures (lowerFunctionBy lower source decl func) context _ :=
        ensures_lowerFunction sound progress.resting found full body
      unfold Ends
      cases ended : lowerFunctionBy lower source decl func context with
      | ok result after =>
        obtain ⟨resting, gives⟩ := ensured.of_ok ended
        exact progress.given earlier found given resting gives
      | error cause after =>
        unfold Ensures at ensured
        rw [ended] at ensured
        exact .inl ensured

/-- All bodies are lowered, one after the other. -/
theorem Progress.run {rest : List (FunctionDecl × FuncId)} (sound : SoundBodies lower)
    (progress : Progress source all done context) (whole : all = done ++ rest) :
    Ends (rest.forM fun (decl, func) => lowerFunctionBy lower source decl func) context
      (fun _ after => Progress source all all after) fun cause _ => BodyFailure all cause := by
  induction rest generalizing done context with
  | nil =>
    rw [List.append_nil] at whole
    subst whole
    exact progress
  | cons pair rest inductionHypothesis =>
    show Ends (lowerFunctionBy lower source pair.1 pair.2 >>= fun _ =>
      rest.forM fun (decl, func) => lowerFunctionBy lower source decl func) context _ _
    rw [ends_bind]
    refine (progress.step sound whole).mono (fun _ after progress => ?_) fun _ _ => id
    exact inductionHypothesis progress (by rw [whole, List.append_assoc]; rfl)

end Bodies

/-- Before a body is lowered, no function has blocks. -/
theorem Resting.start {options : Options} {context : Context}
    (quietly : Quietly (Context.start options) context) : Resting context := by
  have bare : ∀ func function, context.builder.target.function? func = some function →
      function.isDeclaration = true := fun func function =>
    quietly.declares.added func function rfl
  refine ⟨?_, ?_, ?_⟩
  · intro func function found full
    rw [bare func function found] at full
    cases full
  · intro func current
    rw [quietly.builder] at current
    cases current
  · rw [quietly.env]
    rfl

/-- The state in which all declarations are made and no body is lowered yet. -/
theorem Progress.start {source : Source} {options : Options} {context : Context}
    {declared : List (FunctionDecl × FuncId)} (quietly : Quietly (Context.start options) context)
    (placed : ∀ pair ∈ declared, Placed source context.builder.target pair) :
    Progress source declared [] context := by
  refine ⟨.start quietly, placed, fun func function found => ?_⟩
  rw [quietly.declares.added func function rfl found]
  simp

/-- All structs, constants and signatures are declared. -/
theorem ensures_declareItems (source : Source) {context : Context} :
    Ensures (source.program.items.forM (declareItem source)) context fun _ after =>
      Quietly context after :=
  ensures_forM Quietly.refl Quietly.trans fun item _ _ => ensures_declareItem source item

/-- No two functions with a body share the text of their link name. -/
def Source.BodiesApart (source : Source) : Prop :=
  source.program.functions.Pairwise fun first second =>
    first.body.isSome = true → second.body.isSome = true →
      source.names.text first.link ≠ source.names.text second.link

/-- Functions with different link names are different functions. -/
theorem Source.BodiesApart.single {source : Source} (apart : source.BodiesApart) {target : Module}
    {declared : List (FunctionDecl × FuncId)}
    (same : declared.map Prod.fst = source.program.functions)
    (placed : ∀ pair ∈ declared, Placed source target pair) : SingleBodies declared := by
  unfold Source.BodiesApart at apart
  rw [← same, List.pairwise_map] at apart
  refine List.Pairwise.imp_of_mem (fun first second differ given given' here => ?_) apart
  obtain ⟨function, found, named⟩ := placed _ first
  obtain ⟨function', found', named'⟩ := placed _ second
  rw [here, found'] at found
  cases found
  exact differ given given' (named.symm.trans named')

/-- Declares everything, and then lowers every body by `lower`. -/
def lowerItemsBy (lower : List Name → ExprId → LowerM Value) (source : Source) : LowerM Unit := do
  source.program.items.forM (declareItem source)
  let declared ← source.program.functions.mapM fun decl => do
    return (decl, ← declareFn source decl)
  declared.forM fun (decl, func) => lowerFunctionBy lower source decl func

/-- A whole run ends with every body lowered, or fails by no misstep, unless a function has two
bodies. -/
theorem ends_lowerItemsBy {lower : List Name → ExprId → LowerM Value} (sound : SoundBodies lower)
    (source : Source) (options : Options) :
    Ends (lowerItemsBy lower source) (Context.start options)
      (fun _ after => ∃ declared : List (FunctionDecl × FuncId),
        declared.map Prod.fst = source.program.functions ∧
          Progress source declared declared after)
      fun cause _ => cause.isMisstep = false ∨
        cause = .ir (.blockTerminated "entry") ∧ ¬ source.BodiesApart := by
  unfold lowerItemsBy
  rw [ends_bind]
  refine (ensures_declareItems source).ends.mono (fun _ first quietly => ?_)
    fun _ _ harmless => .inl harmless
  rw [ends_bind]
  refine (ensures_declareAll source source.program.functions).ends.mono
    (fun declared second ⟨quietly', same, placed⟩ => ?_) fun _ _ harmless => .inl harmless
  have start := Progress.start (quietly.trans quietly') placed
  refine (start.run sound (List.nil_append declared).symm).mono
    (fun _ after progress => ⟨declared, same, progress⟩) fun cause _ failure => ?_
  rcases failure with harmless | ⟨closed, twice⟩
  · exact .inl harmless
  · exact .inr ⟨closed, fun apart => twice (apart.single same placed)⟩

/-- What is known of the functions of a lowered program. -/
structure Lowered (source : Source) (target : Module) : Prop where
  finished : ∀ func function, target.function? func = some function →
    function.isDeclaration = false → function.Finished
  declared : ∀ decl ∈ source.program.functions, ∃ func function,
    target.function? func = some function ∧ function.name = source.names.text decl.link
  bodies : ∀ func function, target.function? func = some function →
    (function.isDeclaration = false ↔ ∃ decl ∈ source.program.functions,
      source.names.text decl.link = function.name ∧ decl.body.isSome = true)

theorem lowered_of_returned {source : Source} {options : Options} {target : Module}
    (returned : lowerProgram source options = .ok target) : Lowered source target := by
  cases run : lowerItems source (Context.start options) with
  | error cause context =>
    rw [lowerProgram, run] at returned
    cases returned
  | ok result context =>
    rw [lowerProgram, run] at returned
    cases returned
    obtain ⟨declared, same, done⟩ :=
      (ends_lowerItemsBy (soundBodies_lowerExpr source) source options).of_ok run
    have member : ∀ decl, decl ∈ source.program.functions ↔ ∃ pair ∈ declared, pair.1 = decl := by
      intro decl
      rw [← same, List.mem_map]
    refine ⟨done.resting.finished, fun decl listed => ?_,
      fun func function found => ?_⟩
    · obtain ⟨pair, inside, rfl⟩ := (member decl).1 listed
      exact ⟨pair.2, done.placed pair inside⟩
    · rw [done.bodies func function found]
      constructor
      · rintro ⟨pair, inside, rfl, given⟩
        obtain ⟨function', stored, named⟩ := done.placed pair inside
        cases found.symm.trans stored
        exact ⟨pair.1, (member _).2 ⟨pair, inside, rfl⟩, named.symm, given⟩
      · rintro ⟨decl, listed, named, given⟩
        obtain ⟨pair, inside, rfl⟩ := (member decl).1 listed
        obtain ⟨function', stored, named'⟩ := done.placed pair inside
        exact ⟨pair, inside, Module.function?_inj stored found (named'.trans named), given⟩

end TreeLowering.Lowering
