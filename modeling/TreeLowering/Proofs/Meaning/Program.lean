/-
This file proves that lowering keeps what functions mean. A function that works with scalars is
declared with their types, and its body is lowered into it once. Whatever else is in the program, the
bodies that are lowered before and after leave the function as it is.
-/

import TreeLowering.Proofs.Flow.Program
import TreeLowering.Proofs.Meaning.Function
import TreeLowering.Proofs.Regime.Returned
import TreeLowering.Proofs.Restore
import TreeLowering.Proofs.Types.Translation

namespace TreeLowering.Lowering

open TreeLowering.Ir TreeLowering.Tree

/-! ### Declarations -/

section Declarations

variable {source : Source} {context : Context}

theorem ends_declare {α : Type} {step : Module → EStateM.Result Ir.Error Module α}
    {post : α → Context → Prop} (holds : ∀ answer target,
      step context.builder.target = .ok answer target →
        post answer { context with builder := { context.builder with target } }) :
    Ends (build (Build.declare step)) context post fun _ _ => True := by
  obtain ⟨builder, env, memo, strings, scope⟩ := context
  unfold Ends build Build.declare
  dsimp only at holds ⊢
  cases declared : step builder.target with
  | ok answer target => exact holds answer target declared
  | error cause target => trivial

/-- Mapping a type adds no function, and primitive types are mapped to themselves. -/
theorem ends_lowerType (sound : context.memo.Sound source) (ty : TypeId) :
    Ends (lowerType source ty) context (fun mapped after =>
      (after.memo.Sound source ∧
        after.builder.target.functions = context.builder.target.functions) ∧
      ∀ prim, source.program.prim? ty = some prim → mapped = .prim prim) fun _ _ => True := by
  have kept : Ensures (lowerType source ty) context fun _ after => after.memo.Sound source := by
    unfold lowerType mapType
    rw [ensures_mapping]
    exact ensures_mapType_sound sound ty
  have quiet : Ensures (lowerType source ty) context fun _ after =>
      after.builder.target.functions = context.builder.target.functions := by
    unfold lowerType mapType
    rw [ensures_mapping]
    exact (ensures_mapTypeWithin source _ ty _).mono fun _ _ only => only.functions
  have right : Ensures (lowerType source ty) context fun mapped _ =>
      ∀ prim, source.program.prim? ty = some prim → mapped = .prim prim := by
    cases primitive : source.program.prim? ty with
    | none => exact quiet.mono fun _ _ _ prim typed => by cases typed
    | some prim =>
      refine (ensures_lowerType_prim sound primitive).mono fun _ _ lowered prim' typed => ?_
      cases typed
      exact lowered.1
  exact ((kept.ends.and quiet.ends).and right.ends).mono (fun _ _ => id) fun _ _ _ => trivial

theorem ends_declareItem (sound : context.memo.Sound source) (item : Item) :
    Ends (declareItem source item) context (fun _ after => after.memo.Sound source ∧
      after.builder.target.functions = context.builder.target.functions) fun _ _ => True := by
  cases item with
  | struct decl =>
    exact .discard ((ends_lowerType sound decl.ty).mono (fun _ _ lowered => lowered.1) fun _ _ => id)
  | const decl =>
    refine .discard ?_
    unfold declareConst
    rw [ends_bind]
    refine (ends_lowerType sound decl.ty).mono (fun ty second lowered => ?_) fun _ _ => id
    obtain ⟨⟨sound', same⟩, _⟩ := lowered
    exact ends_declare fun _ target declared =>
      ⟨sound', (Module.declareGlobal_elsewhere declared).2.trans same⟩
  | function decl => exact ⟨sound, rfl⟩
  | methods group => exact ⟨sound, rfl⟩

/-! ### Signatures -/

/-- A function has the link name and the parameter names of a declaration. -/
def Source.Origin (source : Source) (function : Function) : Prop :=
  ∃ decl ∈ source.program.functions, source.names.text decl.link = function.name ∧
    function.params.map Ir.Param.name = decl.params.map fun param => source.names.text param.name

/-- A function has the types that its declaration gives, as far as they are primitive. -/
structure Announces (source : Source) (decl : FunctionDecl) (function : Function) : Prop where
  ret : ∀ ret, source.program.prim? decl.ret = some ret → function.ret = .prim ret
  params : ∀ prims, source.program.paramPrims? decl = some prims →
    function.params.map Ir.Param.ty = prims.map .prim

/-- The functions that are there stem from the program, and those of `declared` have its types. -/
structure Declared (source : Source) (declared : List (FunctionDecl × FuncId)) (context : Context) :
    Prop where
  memo : context.memo.Sound source
  origins : ∀ func function, context.builder.target.function? func = some function →
    source.Origin function
  announced : ∀ pair ∈ declared, ∃ function,
    context.builder.target.function? pair.2 = some function ∧ Announces source pair.1 function

/-- A parameter is declared with its name and, if it is primitive, its type. -/
def Heads (source : Source) (param : Tree.Param) (result : Ir.Param) : Prop :=
  result.name = source.names.text param.name ∧
    ∀ prim, source.program.prim? param.ty = some prim → result.ty = .prim prim

theorem ends_declareParams (sound : context.memo.Sound source) (params : List Tree.Param) :
    Ends (params.mapM fun param => do
      return Ir.Param.mk (source.names.text param.name) (← lowerType source param.ty)) context
      (fun results after => (after.memo.Sound source ∧
          after.builder.target.functions = context.builder.target.functions) ∧
        List.Forall₂ (Heads source) params results)
      fun _ _ => True := by
  refine Ends.mapM (fun param _ state holds => ?_) ⟨sound, rfl⟩
  rw [ends_bind]
  refine (ends_lowerType holds.1 param.ty).mono (fun mapped after lowered => ?_) fun _ _ => id
  exact ⟨⟨lowered.1.1, lowered.1.2.trans holds.2⟩, rfl, lowered.2⟩

theorem types_of_heads {params : List Tree.Param} {results : List Ir.Param} {prims : List Prim}
    (heads : List.Forall₂ (Heads source) params results)
    (known : List.Forall₂ (fun param prim => source.program.prim? param.ty = some prim)
      params prims) : results.map Ir.Param.ty = prims.map .prim := by
  induction known generalizing results with
  | nil =>
    cases heads
    rfl
  | cons typed _ inductionHypothesis =>
    cases heads with
    | cons head rest =>
      rw [List.map_cons, List.map_cons, head.2 _ typed, inductionHypothesis rest]

theorem Declared.declareFn {declared : List (FunctionDecl × FuncId)} {decl : FunctionDecl}
    (given : Declared source declared context) (listed : decl ∈ source.program.functions) :
    Ends (Lowering.declareFn source decl) context
      (fun func after => Declared source (declared ++ [(decl, func)]) after) fun _ _ => True := by
  unfold Lowering.declareFn
  rw [ends_bind]
  refine (ends_declareParams given.memo decl.params).mono (fun params first named => ?_) fun _ _ => id
  obtain ⟨⟨memo, same⟩, heads⟩ := named
  rw [ends_bind]
  refine (ends_lowerType memo decl.ret).mono (fun ret second lowered => ?_) fun _ _ => id
  obtain ⟨⟨memo', same'⟩, right⟩ := lowered
  refine ends_declare fun func target added => ⟨memo', fun other function found => ?_,
    fun pair member => ?_⟩
  · rcases Module.declareFunction_only added found with old | rfl
    · refine given.origins other function ?_
      rw [Tables.function?, same', same] at old
      exact old
    · refine ⟨decl, listed, rfl, ?_⟩
      refine eq_map_of_forall₂ (List.forall₂_map_right_iff.2 (heads.imp fun _ _ head => head.1))
  · rcases List.mem_append.1 member with old | new
    · obtain ⟨function, found, announces⟩ := given.announced pair old
      refine ⟨function, (Module.declareFunction_spec added).1.kept pair.2 function ?_, announces⟩
      rw [Tables.function?, same', same]
      exact found
    · rw [List.mem_singleton.1 new]
      obtain ⟨function, stored, signature⟩ := Module.declareFunction_signature added
      obtain ⟨params', ret'⟩ := Ty.func.inj signature
      refine ⟨function, stored, fun prim typed => ret'.trans (right prim typed), fun prims typed => ?_⟩
      exact params'.trans (types_of_heads heads (Program.params_of_paramPrims? typed))

theorem Declared.declareAll {declared : List (FunctionDecl × FuncId)} {decls : List FunctionDecl}
    (given : Declared source declared context)
    (listed : ∀ decl ∈ decls, decl ∈ source.program.functions) :
    Ends (decls.mapM fun decl => do return (decl, ← Lowering.declareFn source decl)) context
      (fun added after => Declared source (declared ++ added) after) fun _ _ => True := by
  induction decls generalizing declared context with
  | nil =>
    show Declared source (declared ++ []) _
    rwa [List.append_nil]
  | cons decl decls inductionHypothesis =>
    rw [List.mapM_cons, ends_bind, ends_bind]
    refine (given.declareFn (listed decl List.mem_cons_self)).mono (fun func first given' => ?_)
      fun _ _ => id
    show Ends (decls.mapM _ >>= fun added => pure ((decl, func) :: added)) first _ _
    rw [ends_bind]
    refine (inductionHypothesis given' fun decl member =>
      listed decl (List.mem_cons_of_mem _ member)).mono (fun added after given'' => ?_) fun _ _ => id
    show Declared source (declared ++ (decl, func) :: added) _
    rwa [List.append_assoc] at given''

end Declarations

/-! ### Bodies -/

/-- Wherever a function is declared under the link name of `decl`, its parameters have different
names. Other declarations count because a function keeps the parameters of its first declaration. -/
def Source.ParamsApart (source : Source) (decl : FunctionDecl) : Prop :=
  ∀ other ∈ source.program.functions, source.names.text other.link = source.names.text decl.link →
    (other.params.map fun param => source.names.text param.name).Nodup

/-- How far the bodies are lowered: those that were lowered compute what their declarations mean, and
the others are still to be lowered into functions of their types. -/
structure Realizes (source : Source) (all done : List (FunctionDecl × FuncId)) (context : Context) :
    Prop extends Progress source all done context where
  memo : context.memo.Sound source
  announced : ∀ pair ∈ all, ∀ function, context.builder.target.function? pair.2 = some function →
    function.isDeclaration = true → source.Origin function ∧ Announces source pair.1 function
  computed : ∀ pair ∈ done, ∀ depth, source.program.wellTypedFunction pair.1 depth = true →
    source.ParamsApart pair.1 → ∃ function,
      context.builder.target.function? pair.2 = some function ∧
        function.Computes source.program pair.1

/-- The types that are remembered stay right while a body is lowered. -/
theorem memo_lowerFunction {source : Source} {context after : Context} {decl : FunctionDecl}
    {func : FuncId} (sound : context.memo.Sound source)
    (returned : lowerFunction source decl func context = .ok () after) : after.memo.Sound source := by
  have steady : (Regime.remembering (TypeMemo.Sound source)).Steady source :=
    Regime.remembering.steady fun ty state sound =>
      (ensures_mapType_sound sound ty).ends.mono (fun _ _ => id) fun _ _ _ => trivial
  have kept := Regime.remembering.lowerFunction steady decl func context ⟨sound, trivial⟩
  exact (kept.of_ok returned).2.1.holds

/-- What a declaration means is computed by the function that has its types and its body. -/
theorem Announces.computes {source : Source} {context after : Context} {decl : FunctionDecl}
    {func : FuncId} {function : Function} {depth : Nat} (announces : Announces source decl function)
    (origin : source.Origin function) (named : function.name = source.names.text decl.link)
    (resting : Resting context) (memo : context.memo.Sound source)
    (found : context.builder.target.function? func = some function)
    (bare : function.isDeclaration = true)
    (typed : source.program.wellTypedFunction decl depth = true) (apart : source.ParamsApart decl)
    (returned : lowerFunction source decl func context = .ok () after) :
    ∃ function', after.builder.target.function? func = some function' ∧
      function'.Computes source.program decl := by
  obtain ⟨ret, prims, _, known, accepted, _⟩ := Program.wellTypedFunction_cases typed
  obtain ⟨other, listed, linked, params⟩ := origin
  refine (resting.computes memo found bare typed known (announces.ret ret known) accepted
    (announces.params prims accepted) ?_).of_ok returned
  rw [params]
  exact apart other listed (linked.trans named)

section Bodies

variable {source : Source} {all done rest : List (FunctionDecl × FuncId)} {context after : Context}
  {decl : FunctionDecl} {func : FuncId}

theorem Realizes.step (realizes : Realizes source all done context)
    (whole : all = done ++ (decl, func) :: rest)
    (returned : lowerFunction source decl func context = .ok () after) :
    Realizes source all (done ++ [(decl, func)]) after := by
  have progress := (realizes.toProgress.step (soundBodies_lowerExpr source) whole).of_ok returned
  have memo := memo_lowerFunction realizes.memo returned
  cases given : decl.body with
  | none =>
    rw [lowerFunction_external given] at returned
    cases returned
    refine ⟨progress, memo, realizes.announced, fun pair member depth typed apart => ?_⟩
    rcases List.mem_append.1 member with old | new
    · exact realizes.computed pair old depth typed apart
    · cases List.mem_singleton.1 new
      obtain ⟨_, _, _, _, _, given', _⟩ := Program.wellTypedFunction_cases typed
      cases given.symm.trans given'
  | some body =>
    have current : (decl, func) ∈ all := by simp [whole]
    obtain ⟨function, found, named⟩ := realizes.placed (decl, func) current
    cases full : function.isDeclaration with
    | false =>
      rw [← lowerFunctionBy_lowerExpr, lowerFunction_full realizes.resting found full given] at returned
      cases returned
    | true =>
      obtain ⟨_, beside, gives⟩ := (ensures_lowerFunction (soundBodies_lowerExpr source)
        realizes.resting found full given).of_ok returned
      refine ⟨progress, memo, fun pair member function' found' bare => ?_,
        fun pair member depth typed apart => ?_⟩
      · obtain ⟨function'', stored, _, full'⟩ := gives function found
        have differs : pair.2 ≠ func := by
          intro same
          rw [same] at found'
          cases found'.symm.trans stored
          rw [bare] at full'
          cases full'
        obtain ⟨old, found'', _⟩ := realizes.placed pair member
        cases found'.symm.trans (beside.kept pair.2 differs old found'')
        exact realizes.announced pair member _ found'' bare
      · rcases List.mem_append.1 member with old | new
        · obtain ⟨function', found', computes⟩ := realizes.computed pair old depth typed apart
          obtain ⟨_, _, _, _, _, given', _⟩ := Program.wellTypedFunction_cases typed
          have full' := (realizes.bodies pair.2 function' found').2
            ⟨pair, old, rfl, by rw [given']; rfl⟩
          refine ⟨function', beside.kept pair.2 (fun same => ?_) function' found', computes⟩
          rw [same, found] at found'
          cases found'
          rw [full] at full'
          cases full'
        · cases List.mem_singleton.1 new
          obtain ⟨origin, announces⟩ := realizes.announced _ current function found full
          exact announces.computes origin named realizes.resting realizes.memo found full typed apart
            returned

theorem Realizes.run (realizes : Realizes source all done context) (whole : all = done ++ rest)
    (returned : (rest.forM fun (decl, func) => lowerFunction source decl func) context =
      .ok () after) : Realizes source all all after := by
  induction rest generalizing done context with
  | nil =>
    rw [List.append_nil] at whole
    subst whole
    cases returned
    exact realizes
  | cons pair rest inductionHypothesis =>
    obtain ⟨_, middle, first, second⟩ := run_bind_ok (show (lowerFunction source pair.1 pair.2 >>=
      fun _ => rest.forM fun (decl, func) => lowerFunction source decl func) context = _ from returned)
    exact inductionHypothesis (realizes.step whole first) (by rw [whole, List.append_assoc]; rfl) second

end Bodies

/-! ### Programs -/

/-- A lowered program computes what it means. -/
theorem realizes_lowerItems {source : Source} {options : Options} {after : Context}
    (returned : lowerItems source (Context.start options) = .ok () after) :
    ∃ declared : List (FunctionDecl × FuncId),
      declared.map Prod.fst = source.program.functions ∧ Realizes source declared declared after := by
  obtain ⟨_, first, items, rest⟩ := run_bind_ok returned
  obtain ⟨declared, second, functions, bodies⟩ := run_bind_ok rest
  have quietly := (ensures_declareItems source).of_ok items
  obtain ⟨quietly', same, placed⟩ :=
    (ensures_declareAll source source.program.functions).of_ok functions
  have empty : first.memo.Sound source ∧ first.builder.target.functions = #[] := by
    have invariant : ∀ item ∈ source.program.items, ∀ state : Context,
        state.memo.Sound source ∧ state.builder.target.functions = #[] →
          Ends (declareItem source item) state (fun _ after => after.memo.Sound source ∧
            after.builder.target.functions = #[]) fun _ _ => True := fun item _ state holds =>
      (ends_declareItem holds.1 item).mono (fun _ _ kept => ⟨kept.1, kept.2.trans holds.2⟩)
        fun _ _ => id
    refine (Ends.forM invariant ⟨?_, rfl⟩).of_ok items
    intro ty mapped prim found
    cases found
  have start : Declared source [] first := by
    refine ⟨empty.1, fun func function found => ?_, fun _ member => by cases member⟩
    rw [Tables.function?, empty.2] at found
    cases found
  have given := (start.declareAll fun _ => id).of_ok functions
  refine ⟨declared, same, Realizes.run ⟨.start (quietly.trans quietly') placed, given.memo,
    fun pair member function found _ => ?_, fun _ member => by cases member⟩ rfl bodies⟩
  obtain ⟨function', found', announces⟩ := given.announced pair member
  cases found.symm.trans found'
  exact ⟨given.origins _ _ found, announces⟩

/-- Lowering keeps what functions mean. -/
theorem lowerProgram_keepsMeaning {source : Source} {options : Options} {target : Module}
    (returned : lowerProgram source options = .ok target) {decl : FunctionDecl} {depth : Nat}
    (listed : decl ∈ source.program.functions)
    (typed : source.program.wellTypedFunction decl depth = true)
    (apart : source.ParamsApart decl) :
    ∃ function, target.functionByName? (source.names.text decl.link) = some function ∧
      function.Computes source.program decl := by
  unfold lowerProgram at returned
  split at returned
  · next result context lowered =>
    cases returned
    obtain ⟨declared, same, realizes⟩ := realizes_lowerItems lowered
    rw [← same, List.mem_map] at listed
    obtain ⟨⟨_, func⟩, member, rfl⟩ := listed
    obtain ⟨function, found, computes⟩ := realizes.computed _ member depth typed apart
    obtain ⟨function', found', named⟩ := realizes.placed _ member
    cases found.symm.trans found'
    rw [← named]
    exact ⟨function, Module.functionByName?_of_found found, computes⟩
  · cases returned

/-- The declaration of `fn sum(mut n: u8) -> u8`. -/
def sumDecl : FunctionDecl :=
  ⟨⟨3⟩, ⟨3⟩, [⟨⟨1⟩, .u8, true, .nowhere⟩], .u8, some ⟨13⟩, .root, .nowhere⟩

/-- `{ let mut total: u8 = 0; while n > 0 { total += n; n -= 1; } total }` as the body of `sum`. -/
def summing : Source where
  names := (((NameTable.initial.intern "n").2.intern "total").2.intern "sum").2
  program :=
    { types := .initial
      scopes := .initial
      arena := ⟨#[⟨.int 0, .nowhere, .u8⟩, ⟨.path [⟨1⟩], .nowhere, .u8⟩, ⟨.int 0, .nowhere, .u8⟩,
        ⟨.binary .gt ⟨1⟩ ⟨2⟩, .nowhere, .bool⟩, ⟨.path [⟨2⟩], .nowhere, .u8⟩,
        ⟨.path [⟨1⟩], .nowhere, .u8⟩, ⟨.compound .add ⟨4⟩ ⟨5⟩, .nowhere, .unit⟩,
        ⟨.path [⟨1⟩], .nowhere, .u8⟩, ⟨.int 1, .nowhere, .u8⟩,
        ⟨.compound .sub ⟨7⟩ ⟨8⟩, .nowhere, .unit⟩,
        ⟨.block .root [.semi ⟨6⟩, .semi ⟨9⟩] none, .nowhere, .unit⟩,
        ⟨.whileLoop ⟨3⟩ ⟨10⟩, .nowhere, .unit⟩, ⟨.path [⟨2⟩], .nowhere, .u8⟩,
        ⟨.block .root [.bind (.ident ⟨2⟩ true) .u8 (some ⟨0⟩) .nowhere, .expr ⟨11⟩] (some ⟨12⟩),
          .nowhere, .u8⟩]⟩
      items := [.function sumDecl] }

/-- Called with three, the lowered function returns six. -/
theorem summing_keepsMeaning : ∃ target function,
    lowerProgram summing .standard = .ok target ∧ target.functionByName? "sum" = some function ∧
      ∀ world store, ∃ fuel store', target.call? world function [.word 8 3] fuel store =
        some (some (.word 8 6), store') := by
  obtain ⟨target, returned⟩ : ∃ target, lowerProgram summing .standard = .ok target := ⟨_, by cbv⟩
  have listed : sumDecl ∈ summing.program.functions := List.mem_cons_self
  have typed : summing.program.wellTypedFunction sumDecl 5 = true := by decide +kernel
  have apart : summing.ParamsApart sumDecl := by
    intro other member _
    cases List.mem_singleton.1 member
    exact List.nodup_singleton _
  have accepted : summing.program.paramPrims? sumDecl = some [.u8] := by decide +kernel
  have called : summing.program.call? sumDecl [⟨.u8, 3⟩] 9 = some ⟨.u8, 6⟩ := by decide +kernel
  obtain ⟨function, found, computes⟩ := lowerProgram_keepsMeaning returned listed typed apart
  have name : summing.names.text sumDecl.link = "sum" := by decide +kernel
  exact ⟨target, function, returned, name ▸ found, fun world store =>
    computes [⟨.u8, 3⟩] 9 ⟨.u8, 6⟩ accepted called target world store⟩

end TreeLowering.Lowering
