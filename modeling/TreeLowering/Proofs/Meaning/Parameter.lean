/-
This file proves that a body begins with its parameters bound to the arguments. A body starts with an
entry block of its own in which nothing is set. A parameter that is not assigned to is used as it is;
any other is stored to a slot on entry.
-/

import TreeLowering.Proofs.Flow.Function
import TreeLowering.Proofs.Meaning.Block

namespace TreeLowering.Lowering

open TreeLowering.Ir TreeLowering.Tree Builder

/-! ### The beginning of a body -/

section Begin

variable {builder : Builder} {func : FuncId} {function : Function}

theorem sets_withEntry (bare : function.isDeclaration = true) (name : ValueName) :
    ¬ function.withEntry.Sets name := by
  rintro (⟨id, inst, member, _⟩ | ⟨slot, member, _⟩)
  · rw [Function.plain, code_withEntry bare] at member
    cases member
  · rw [Function.slots, code_withEntry bare] at member
    cases member

theorem arranged_withEntry (bare : function.isDeclaration = true) :
    function.withEntry.Arranged := by
  have plain : ∀ id, function.withEntry.plain id = [] := fun id => by
    rw [Function.plain, code_withEntry bare]
    rfl
  have slots : function.withEntry.slots = [] := by
    rw [Function.slots, code_withEntry bare]
    rfl
  refine ⟨?_, fun id _ => ?_, ?_, fun id inst member => ?_⟩
  · rw [code_withEntry bare, slots, plain]
    rfl
  · rw [code_withEntry bare, plain]
  · rw [slots]
    exact List.nodup_nil
  · rw [plain] at member
    cases member

variable (away : builder.current ≠ some func) (found : builder.target.function? func = some function)

include away found

theorem body_first : (Moment.first builder func).builder.body = function.withEntry :=
  first_body away found

/-- Nothing is set when a body begins. -/
theorem fit_first (bare : function.isDeclaration = true) :
    (Moment.first builder func).builder.Fit := by
  have body := body_first away found
  have start := first_builder away found
  have unset := sets_withEntry bare
  refine ⟨⟨func, by rw [start], ?_⟩, fun cursor positioned => ?_, ?_, ?_, ?_, fun number sets => ?_,
    fun text sets => ?_⟩
  · rw [body, start, Module.function?_modifyFunction, if_pos rfl, found]
    rfl
  · rw [start] at positioned
    cases positioned
    refine ⟨by rw [start], ?_, ?_⟩
    · rw [Has, body, block?_withEntry bare, if_pos rfl]
      rfl
    · rw [body, exit?_withEntry bare]
  · rw [body]
    exact (labelled_withEntry bare).started
  · rw [body]
    exact arranged_withEntry bare
  · rw [body, start, Function.slots, code_withEntry bare, Builder.leadingSlots,
      block?_withEntry bare, if_pos rfl]
    rfl
  · rw [body] at sets
    exact absurd sets (unset _)
  · rw [body] at sets
    exact absurd sets (unset _)

end Begin

/-- The site at the beginning of a body that returns `ret`. -/
def Site.atEntry (ret : Prim) : Site :=
  ⟨(Env.empty.pushFunction (.prim ret)).enterScope, [[]], ret, false⟩

theorem bound_atEntry (body : Function) (ret : Prim) : Bound body (.atEntry ret) :=
  ⟨.cons .nil .nil, List.nodup_nil, rfl, fun jump id found => by cases jump <;> cases found⟩

theorem Run.holds_atEntry {run : Run} {ret : Prim} {state : State}
    (homes : ∀ slot ∈ run.function.slots,
      state.regs slot.name = some (.address ⟨run.home slot.name, 0⟩)) :
    run.Holds (.atEntry ret) [[]] state :=
  ⟨homes, .cons .nil .nil, .cons .nil .nil⟩

/-! ### Parameters -/

theorem Binds.stands {source : Source} {site : Site} {context after : Context} {name : Name}
    {prim : Prim} {value : Option Value} {binding : Binding}
    (binds : Binds source site context.builder name prim value binding after)
    (stands : Stands source site context) : Stands source (site.bind name binding prim) after := by
  refine ⟨binds.fit, ?_, binds.env, binds.bound stands.bound, binds.memo⟩
  rw [binds.here]
  exact stands.live

/-- Whether the operands of the parameters from `position` on show the arguments. -/
def Run.Passed (run : Run) (body : Function) (position : Nat) (args : List Scalar) : Prop :=
  List.Forall₂ (fun (param : Ir.Param) arg => ∀ state, run.Shows state param.value arg)
    (body.params.drop position) args

/-- Names were bound, from the parameter at `position` on, to what holds the arguments. -/
structure Receives (source : Source) (site : Site) (now : Builder) (position : Nat)
    (names : List Name) (prims : List Prim) (site' : Site) (after : Context) : Prop where
  stands : Stands source site' after
  leads : Leads now after.builder
  alike : site.Alike site'
  typed : site'.prims = .bindAll (names.zip prims) site.prims
  runs : ∀ run : Run, after.builder.body.Extends run.function → ∀ args locals id previous state,
    now.here? = some id → args.map Scalar.prim = prims → run.Passed now.body position args →
      run.Holds site locals state → ∃ id' previous' state', after.builder.here? = some id' ∧
        run.Reaches (run.spot now id previous state) (run.spot after.builder id' previous' state') ∧
          run.Holds site' (.bindAll (names.zip (args.map some)) locals) state'

section Params

variable {source : Source} {site : Site} {context : Context} {func : FuncId}

theorem Stands.bindParam {prim : Prim} (stands : Stands source site context) (taken : List Name)
    (param : Tree.Param) {value : Value} (typed : value.ty = .prim prim)
    (bare : value.regName? = none) :
    Ensures (bindParam source taken param value) context fun _ after => ∃ binding,
      Binds source site context.builder param.name prim (some value) binding after := by
  unfold Lowering.bindParam
  split_ifs
  · obtain ⟨id, here⟩ := stands.live
    unfold spill
    rw [bind_assoc, ensures_bind, ensures_build, typed]
    refine stands.fit.reserve.mono fun address second reserved => ?_
    obtain ⟨slot, rfl, reserves⟩ := reserved
    rw [bind_assoc, ensures_bind, ensures_build]
    refine (reserves.fit.store (reserves.here.trans here) (by rw [typed]; rfl)).mono
      fun _ third stored => ?_
    obtain ⟨result, emits⟩ := stored
    exact ⟨_, stands.bindStored here reserves emits param.name param.mutable⟩
  · exact ⟨.param value, stands.bindOperand ⟨stands.fit, rfl, rfl, rfl⟩ (.of_constant typed bare)
      (fun _ known => known) rfl fun _ _ scalar shows => ⟨scalar, rfl, shows⟩⟩

theorem Stands.bindParams {params : List Tree.Param} {position : Nat} {prims : List Prim}
    (stands : Stands source site context) (taken : List Name)
    (current : context.builder.current = some func) (count : params.length = prims.length)
    (typed : (context.builder.body.params.drop position).map Ir.Param.ty = prims.map .prim)
    (inhabited : ∀ prim ∈ prims, prim ≠ .never) :
    Ensures (bindParams source taken func position params) context fun _ after => ∃ site',
      Receives source site context.builder position (params.map Param.name) prims site' after := by
  induction params generalizing site context position prims with
  | nil =>
    exact ⟨site, stands, .refl _, .refl site, rfl, fun run _ args locals id previous state here _ _
      holds => ⟨id, previous, state, here, Run.reaches_refl _, holds⟩⟩
  | cons param params inductionHypothesis =>
    cases prims with
    | nil => cases count
    | cons prim prims =>
    unfold Lowering.bindParams
    rw [ensures_bind, ensures_build,
      ensures_ask (Module.getFunction_of_found (stands.fit.found current))]
    cases split : context.builder.body.params.drop position with
    | nil =>
      rw [split] at typed
      cases typed
    | cons declared rest =>
    rw [split, List.map_cons, List.map_cons, List.cons.injEq] at typed
    have following : context.builder.body.params.drop (position + 1) = rest := by
      rw [← List.drop_drop, split]
      rfl
    have listed : context.builder.body.params[position]? = some declared := by
      rw [← List.head?_drop, split]
      rfl
    rw [Function.paramValue?, listed, Option.map_some]
    dsimp only
    rw [ensures_bind]
    refine (stands.bindParam taken param (show declared.value.ty = _ from typed.1) rfl).mono
      fun _ second bound => ?_
    obtain ⟨binding, binds⟩ := bound
    have kept : second.builder.body.params = context.builder.body.params :=
      binds.leads.grown.params
    refine (inductionHypothesis (binds.stands stands) (binds.leads.current.trans current)
      (Nat.succ.inj count) (by rw [kept, following]; exact typed.2)
      fun prim member => inhabited prim (List.mem_cons_of_mem _ member)).mono
        fun _ after received => ?_
    obtain ⟨site', receives⟩ := received
    refine ⟨site', receives.stands, binds.leads.trans receives.leads,
      (site.alike_bind _ _ _).trans receives.alike, receives.typed, ?_⟩
    intro run grown args locals id previous state here same passed holds
    rw [Run.Passed, split] at passed
    cases passed with
    | cons shows others =>
    rw [List.map_cons, List.cons.injEq] at same
    have offers : run.Offers state prim (some declared.value) (some _) :=
      ⟨shows state, same.1, inhabited prim List.mem_cons_self⟩
    obtain ⟨previous₂, state₂, reaches, _, holds₂, carries⟩ := binds.runs run
      (receives.leads.grown.trans grown) locals (some _) id previous state here holds offers
    obtain ⟨id', previous', state', here', reaches', holds'⟩ := receives.runs run grown _ _ id
      previous₂ state₂ (binds.here.trans here) same.2 (by rw [Run.Passed, kept, following]; exact others)
      (holds₂.bind carries offers.hasPrim param.name)
    exact ⟨id', previous', state', here', reaches.trans reaches', holds'⟩

end Params

end TreeLowering.Lowering
