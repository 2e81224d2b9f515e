/-
This file proves that a function whose body is lowered computes what its declaration means. A call
runs the stack slots at the front of the entry block first, which gives each a region of its own.
Then it runs what was lowered for the parameters and for the body, and comes to a return.
-/

import TreeLowering.Proofs.Meaning.Expr
import TreeLowering.Proofs.Meaning.Parameter

namespace TreeLowering.Tree

open TreeLowering.Ir

/-- What a function returns whose body ends so. -/
def Outcome.scalar? : Outcome → Option Scalar
  | value scalar | result scalar => some scalar
  | jump _ => none

theorem Program.call?_eq_some {program : Program} {decl : FunctionDecl} {args : List Scalar}
    {fuel : Nat} {result : Scalar} {body : ExprId} (given : decl.body = some body)
    (called : program.call? decl args fuel = some result) : ∃ outcome locals,
      program.evaluate fuel body (decl.locals args) = some (outcome, locals) ∧
        outcome.scalar? = some result := by
  unfold call? at called
  rw [given] at called
  dsimp only at called
  split at called
  · next scalar locals evaluated =>
    cases called
    exact ⟨_, locals, evaluated, rfl⟩
  · next scalar locals evaluated =>
    cases called
    exact ⟨_, locals, evaluated, rfl⟩
  · cases called

/-- The types of the parameters are those of their declarations. -/
theorem Program.params_of_paramPrims? {program : Program} {decl : FunctionDecl} {prims : List Prim}
    (accepted : program.paramPrims? decl = some prims) :
    List.Forall₂ (fun param prim => program.prim? param.ty = some prim) decl.params prims := by
  unfold paramPrims? at accepted
  generalize decl.params = params at accepted
  induction params generalizing prims with
  | nil =>
    cases accepted
    exact .nil
  | cons param params inductionHypothesis =>
    rw [List.mapM_cons] at accepted
    obtain ⟨prim, known, rest⟩ := Option.bind_eq_some_iff.1 accepted
    obtain ⟨prims', others, ended⟩ := Option.bind_eq_some_iff.1 rest
    cases ended
    exact .cons known (inductionHypothesis others)

/-- What a well-typed function is made of. -/
theorem Program.wellTypedFunction_cases {program : Program} {decl : FunctionDecl} {depth : Nat}
    (typed : program.wellTypedFunction decl depth = true) : ∃ ret prims body,
      program.prim? decl.ret = some ret ∧ program.paramPrims? decl = some prims ∧
        decl.body = some body ∧ (∀ prim ∈ prims, prim ≠ .never) ∧ program.suits ret body = true ∧
          program.wellTyped ret depth false
            (.bindAll ((decl.params.map Param.name).zip prims) [[]]) body = true := by
  unfold wellTypedFunction at typed
  split at typed
  · next ret prims body known params given =>
    simp only [Bool.and_eq_true, List.all_eq_true, bne_iff_ne] at typed
    exact ⟨ret, prims, body, known, params, given, typed.1.1, typed.1.2, typed.2⟩
  · cases typed

end TreeLowering.Tree

namespace TreeLowering.Ir

open TreeLowering.Tree

/-! ### Stack slots -/

namespace Setting

variable {setting : Setting} {function : Function} {previous : Option BlockId} {id : BlockId}

/-- Instructions that can be run lead to what stands behind them. -/
theorem reaches_of_run? {insts rest : List Instruction} {state after : State}
    (ran : setting.run? previous insts state = some after) :
    setting.Reaches function ⟨previous, id, insts ++ rest, state⟩ ⟨previous, id, rest, after⟩ := by
  induction insts generalizing state with
  | nil =>
    cases ran
    exact .refl
  | cons inst insts inductionHypothesis =>
    obtain ⟨middle, executed, ran⟩ := run?_cons.1 ran
    refine .head ?_ (inductionHypothesis ran)
    simp only [advance?, List.cons_append, executed, Option.bind_eq_bind, Option.bind_some,
      Option.pure_def]

/-- Slots are given regions in their order. -/
theorem run?_slots {slots : List Instruction} (allocas : ∀ slot ∈ slots, slot.op.isAlloca = true)
    (distinct : (slots.map Instruction.name).Nodup) (state : State) :
    ∃ after, setting.run? previous slots state = some after ∧ ∀ slot ∈ slots,
      after.regs slot.name = some (.address
        ⟨state.store.fresh + (slots.map Instruction.name).idxOf slot.name, 0⟩) := by
  induction slots generalizing state with
  | nil => exact ⟨state, rfl, fun _ member => by cases member⟩
  | cons slot slots inductionHypothesis =>
    rw [List.map_cons, List.nodup_cons] at distinct
    obtain ⟨name, ty, op⟩ := slot
    obtain ⟨new, distinct⟩ := distinct
    have alloca := allocas _ List.mem_cons_self
    cases op with
    | alloca allocated =>
      obtain ⟨after, ran, homes⟩ := inductionHypothesis
        (fun slot member => allocas slot (List.mem_cons_of_mem _ member)) distinct
        (state.set name (.address ⟨state.store.fresh, 0⟩)
          { state.store with fresh := state.store.fresh + 1 })
      refine ⟨after, run?_cons.2 ⟨_, execute?_eq_some_iff.2 ⟨_, _, rfl, rfl⟩, ran⟩,
        fun slot member => ?_⟩
      rcases List.mem_cons.1 member with rfl | member
      · have unset : ∀ inst ∈ slots, inst.name ≠ name := fun inst member same =>
          new (List.mem_map.2 ⟨inst, member, same⟩)
        rw [regs_of_run? unset ran, List.map_cons, List.idxOf_cons_self]
        exact if_pos rfl
      · have differs : slot.name ≠ name := fun same => new (List.mem_map.2 ⟨slot, member, same⟩)
        rw [homes slot member, List.map_cons, List.idxOf_cons_ne _ differs.symm]
        simp only [State.set]
        rw [Nat.add_right_comm, Nat.add_assoc]
    | _ => cases alloca

end Setting

/-- Whether a function returns what the declaration says, wherever it is called. -/
def Function.Computes (function : Function) (program : Program) (decl : FunctionDecl) : Prop :=
  ∀ args fuel result, program.paramPrims? decl = some (args.map Scalar.prim) →
    program.call? decl args fuel = some result → ∀ target world store, ∃ fuel' store',
      Module.call? target world function (args.map Scalar.datum) fuel' store =
        some (result.returned, store')

end TreeLowering.Ir

namespace TreeLowering.Lowering

open TreeLowering.Ir TreeLowering.Tree Builder

/-! ### Calls -/

/-- The run of a call; the slots are given regions in their order. -/
def Run.ofCall (target : Module) (world : World) {function : Function} (arranged : function.Arranged)
    (args : List Datum) (store : Store) : Run where
  setting := ⟨world, target, (function.params.map Ir.Param.name).zip args⟩
  function := function
  home name := store.fresh + (function.slots.map Instruction.name).idxOf name
  arranged := arranged
  apart _ member _ _ same :=
    (List.idxOf_inj (List.mem_map_of_mem member)).1 (Nat.add_left_cancel same)

/-- A call comes to its end if it does so from behind the stack slots on. -/
theorem Run.calls {target : Module} {world : World} {function : Function} {args : List Datum}
    {store : Store} {result : Option Datum} (arranged : function.Arranged)
    (finishes : ∀ state, (∀ slot ∈ function.slots, state.regs slot.name =
      some (.address ⟨(Run.ofCall target world arranged args store).home slot.name, 0⟩)) →
        (Run.ofCall target world arranged args store).Finishes
          (Run.start (.ofCall target world arranged args store) Function.entryId none state) result) :
    ∃ fuel store', target.call? world function args fuel store = some (result, store') := by
  obtain ⟨after, ran, homes⟩ := @Setting.run?_slots
    (Run.ofCall target world arranged args store).setting none function.slots
    (fun slot member => (List.mem_filter.1 member).2) arranged.distinct ⟨fun _ => none, store⟩
  have reaches := @Setting.reaches_of_run? _ function none Function.entryId _
    (function.plain Function.entryId) _ _ ran
  rw [← arranged.front] at reaches
  exact reaches.finishes (finishes after homes)

/-! ### Bodies -/

/-- What is left behind where a body is done: the code returns what the evaluation says. -/
structure Completes (site : Site) (now : Builder) (meaning : Nat → Evaluation) (later : Builder) :
    Prop where
  fit : later.Fit
  leads : Leads now later
  runs : ∀ run : Run, later.body.Extends run.function → ∀ fuel locals outcome locals' result,
    meaning fuel locals = some (outcome, locals') → outcome.scalar? = some result →
      ∀ id previous state, now.here? = some id → run.Holds site locals state →
        run.Finishes (run.spot now id previous state) result.returned

/-- A body that ends with a value returns it. -/
theorem Stands.lowerBody {source : Source} {site : Site} {context : Context} {body : ExprId}
    {depth : Nat} (stands : Stands source site context) (taken : List Name)
    (typed : source.program.wellTyped site.ret depth site.leaves site.prims body = true)
    (suits : source.program.suits site.ret body = true) :
    Ensures
      (Lowering.thenLive () (Lowering.lowerExpr source taken body) (finishBody (.prim site.ret)))
      context fun _ after => Completes site context.builder (fun fuel => source.program.evaluate fuel body)
        after.builder := by
  obtain ⟨_, _, carried, _, _, carries, _⟩ := Program.wellTyped_cases typed
  refine Stands.thenLive (stands.lowerExpr taken typed carries) (fun value after means nowhere => ?_)
    fun value second means live => ?_
  · refine ⟨means.fit, means.leads, fun run grown fuel locals outcome locals' result evaluated ended
      id previous state here holds => ?_⟩
    have ends := means.runs run grown fuel _ _ _ evaluated id previous state here holds trivial
    cases outcome with
    | value scalar =>
      obtain ⟨_, _, id', here', _⟩ := ends
      rw [nowhere] at here'
      cases here'
    | jump jump => cases ended
    | result scalar =>
      cases ended
      exact ends.2
  · obtain ⟨id, here⟩ := live
    unfold finishBody
    rw [ensures_build]
    refine (means.fit.terminate here).mono fun _ later closes => ?_
    refine ⟨closes.fit, means.leads.trans closes.leads, fun run grown fuel locals outcome locals'
      result evaluated ended id' previous state here' holds => ?_⟩
    have ends := means.runs run (closes.leads.grown.trans grown) fuel _ _ _ evaluated id' previous
      state here' holds trivial
    cases outcome with
    | value scalar =>
      cases ended
      obtain ⟨same, inhabited, id₂, here₂, previous₂, state₂, reaches, _, shows, _⟩ := ends
      cases here.symm.trans here₂
      obtain rfl := Program.prim_of_suits suits carries inhabited
      have exits := closes.toExits
      rw [shows.retype] at exits
      exact Setting.Reaches.finishes reaches (Run.finishes_scalar exits grown same shows)
    | jump jump => cases ended
    | result scalar =>
      cases ended
      exact ends.2

/-! ### Functions -/

/-- Parameters with different names stand for different arguments. -/
theorem args_lookup {params : List Ir.Param} {args : List Scalar}
    (typed : params.map Ir.Param.ty = (args.map Scalar.prim).map .prim)
    (distinct : (params.map Ir.Param.name).Nodup) :
    List.Forall₂ (fun param arg => param.ty = .prim arg.prim ∧
      ((params.map Ir.Param.name).zip (args.map Scalar.datum)).lookup param.name = some arg.datum)
      params args := by
  induction params generalizing args with
  | nil =>
    cases args with
    | nil => exact .nil
    | cons arg args => cases typed
  | cons param params inductionHypothesis =>
    cases args with
    | nil => cases typed
    | cons arg args =>
      rw [List.map_cons, List.map_cons, List.map_cons, List.cons.injEq] at typed
      rw [List.map_cons, List.nodup_cons] at distinct
      refine .cons ⟨typed.1, List.lookup_cons_self⟩ ?_
      have differs : ∀ other ∈ params, other.name ≠ param.name := fun other member same =>
        distinct.1 (List.mem_map.2 ⟨other, member, same⟩)
      refine ((List.forall₂_and_left _ _).2 ⟨differs, inductionHypothesis typed.2 distinct.2⟩).imp ?_
      rintro other arg ⟨differs, typed, found⟩
      refine ⟨typed, ?_⟩
      rw [List.map_cons, List.map_cons, List.zip_cons_cons, List.lookup_cons, beq_false_of_ne differs]
      exact found

/-- A body begins at the entry block, with nothing bound. -/
theorem Resting.stands {source : Source} {context : Context} {func : FuncId} {function : Function}
    (resting : Resting context) (memo : context.memo.Sound source)
    (found : context.builder.target.function? func = some function)
    (bare : function.isDeclaration = true) (ret : Prim) (scope : ScopeId) :
    Stands source (.atEntry ret) (Context.enterScope { context with
      builder := (Moment.first context.builder func).builder
      env := context.env.pushFunction (.prim ret) } scope) := by
  have away := resting.away found bare
  refine ⟨fit_first away found bare, ⟨Function.entryId, ?_⟩, ?_, bound_atEntry _ ret, memo⟩
  · rw [Context.enterScope, first_builder away found]
    rfl
  · rw [Context.enterScope, resting.env]
    rfl

/-- The arguments of a call are what the operands of the parameters show. -/
theorem Run.passed_ofCall {target : Module} {world : World} {function body : Function}
    {args : List Scalar} {store : Store} (arranged : function.Arranged)
    (same : function.params = body.params)
    (typed : body.params.map Ir.Param.ty = (args.map Scalar.prim).map .prim)
    (distinct : (body.params.map Ir.Param.name).Nodup) :
    (Run.ofCall target world arranged (args.map Scalar.datum) store).Passed body 0 args := by
  rw [Run.Passed, List.drop_zero]
  refine (args_lookup typed distinct).imp fun param arg looked _ => ⟨looked.1, ?_⟩
  show ((function.params.map Ir.Param.name).zip _).lookup param.name = _
  rw [same]
  exact looked.2

/-- A function whose body was lowered computes what its declaration means. -/
theorem Resting.computes {source : Source} {context : Context} {decl : FunctionDecl} {func : FuncId}
    {function : Function} {depth : Nat} {ret : Prim} {prims : List Prim} (resting : Resting context)
    (memo : context.memo.Sound source)
    (found : context.builder.target.function? func = some function)
    (bare : function.isDeclaration = true)
    (typed : source.program.wellTypedFunction decl depth = true)
    (known : source.program.prim? decl.ret = some ret) (returns : function.ret = .prim ret)
    (accepted : source.program.paramPrims? decl = some prims)
    (params : function.params.map Ir.Param.ty = prims.map .prim)
    (distinct : (function.params.map Ir.Param.name).Nodup) :
    Ensures (lowerFunction source decl func) context fun _ after => ∃ function',
      after.builder.target.function? func = some function' ∧
        function'.Computes source.program decl := by
  obtain ⟨ret', prims', body, known', accepted', given, inhabited, suits, checked⟩ :=
    Program.wellTypedFunction_cases typed
  cases known.symm.trans known'
  cases accepted.symm.trans accepted'
  have away := resting.away found bare
  have start := first_builder away found
  have current : (Moment.first context.builder func).builder.current = some func := by rw [start]
  have declared : (Moment.first context.builder func).builder.body.params = function.params :=
    (congrArg Function.params (body_first away found)).trans function.params_withEntry
  have plain : (Moment.first context.builder func).builder.body.plain Function.entryId = [] := by
    rw [body_first away found, Function.plain, code_withEntry bare]
    rfl
  rw [← lowerFunctionBy_lowerExpr]
  refine resting.begin found bare given ?_
  rw [ensures_inFunction, ensures_inScope, returns, ensures_bind]
  refine ((resting.stands memo found bare ret decl.scope).bindParams
    (source.program.addressTaken body) current (Program.params_of_paramPrims? accepted).length_eq
    ((congrArg (List.map Ir.Param.ty) (List.drop_zero.trans declared)).trans params) inhabited).mono
      fun _ second received => ?_
  obtain ⟨site', receives⟩ := received
  have ret' : site'.ret = ret := receives.alike.ret
  have leaves' : site'.leaves = false := receives.alike.leaves
  have prims' : site'.prims = Scopes.bindAll _ [[]] := receives.typed
  rw [← ret'] at checked suits ⊢
  rw [← leaves', ← prims'] at checked
  refine (receives.stands.lowerBody (source.program.addressTaken body) checked suits).mono
    fun _ third completes => ?_
  have leads := receives.leads.trans completes.leads
  refine ⟨third.builder.body, completes.fit.found (leads.current.trans current), ?_⟩
  intro args fuel result accepted' called target world store
  cases accepted.symm.trans accepted'
  obtain ⟨outcome, locals, evaluated, ended⟩ := Program.call?_eq_some given called
  refine Run.calls completes.fit.arranged fun state homes => ?_
  have passed := @Run.passed_ofCall target world _ (Moment.first context.builder func).builder.body
    args store completes.fit.arranged leads.grown.params (declared ▸ params) (declared ▸ distinct)
  obtain ⟨id, previous, state', here, reaches, holds⟩ := receives.runs _ completes.leads.grown args
    [[]] Function.entryId none state (by rw [start]; rfl) rfl passed (Run.holds_atEntry homes)
  have finishes := completes.runs _ (.refl _) fuel _ _ _ _ evaluated ended id previous state' here holds
  rw [← Run.spot_of_bare plain]
  exact Setting.Reaches.finishes reaches finishes

end TreeLowering.Lowering
