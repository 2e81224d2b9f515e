/-
This file says which signature a symbol has. The first declaration of a name settles it: whatever is
declared or lowered later, the function of that name keeps its position and its type. A symbol that
nothing has declared is declared as the function type it is resolved to, and refused when it is
resolved to another type. A symbol that is declared already is handed out without a look at the type
it is resolved to, so it has that type only if the first declaration said so.
-/

import TreeLowering.Proofs.Blame
import TreeLowering.Proofs.Tables.Ledger

namespace TreeLowering.Tree

/-- The type is that of a function. -/
def TypePool.IsFunction (pool : TypePool) (ty : TypeId) : Prop :=
  ∃ params ret, pool.kind ty = .function params ret

end TreeLowering.Tree

namespace TreeLowering.Ir

/-- The name and the type of a function do not depend on its blocks. -/
theorem Function.Bears.of_bare {first second : Function} {name : String} {signature : Ty}
    (bears : first.Bears name signature) (same : second.bare = first.bare) :
    second.Bears name signature :=
  have signed : second.bare.signature = first.bare.signature := congrArg Function.signature same
  ⟨(congrArg Function.name same).trans bears.1, signed.trans bears.2⟩

end TreeLowering.Ir

namespace TreeLowering.Lowering

open TreeLowering.Ir TreeLowering.Tree Relation

/-! ### Runs of declarations and lowerings -/

/-- One declaration, or the lowering of one expression or one body, that returns. -/
inductive Source.Step (source : Source) (before after : Context) : Prop where
  | item (item : Item) (returned : declareItem source item before = .ok () after)
  | signature (decl : FunctionDecl) (func : FuncId)
      (returned : declareFn source decl before = .ok func after)
  | symbol (link : Name) (ty : TypeId) (span : Span) (func : FuncId)
      (returned : functionForSymbol source link ty span before = .ok func after)
  | text (text : String) (address : Value)
      (returned : internString text before = .ok address after)
  | expr (taken : List Name) (expr : ExprId) (value : Value)
      (returned : lowerExpr source taken expr before = .ok value after)
  | body (decl : FunctionDecl) (func : FuncId)
      (returned : lowerFunction source decl func before = .ok () after)

/-- One state comes after the other by any number of steps, in any order. -/
def Source.Leads (source : Source) : Context → Context → Prop := ReflTransGen source.Step

/-! ### The regime of signatures -/

/-- What is remembered about types is right, and the functions in `known` are where they were. -/
structure Signing (source : Source) (known : List Function) (builder : Builder) (memo : TypeMemo) :
    Prop where
  truthful : TypeState.Truthful source ⟨memo, builder.target⟩
  idle : memo.pending = []
  grown : known <+: builder.target.signatures

namespace Signing

variable {source : Source} {known : List Function} {builder after : Builder} {memo : TypeMemo}

theorem step (signing : Signing source known builder memo)
    (types : after.target.types = builder.target.types)
    (signatures : builder.target.signatures <+: after.target.signatures) :
    Signing source known after memo :=
  ⟨signing.truthful.of_types types, signing.idle, signing.grown.trans signatures⟩

/-- A step that declares no function. -/
theorem settled {α : Type} {live : Bool} {action : BuildM α}
    (signing : Signing source known builder memo) (stays : Build.Stays live action)
    (settled : Returns action builder fun _ after => builder.Settled after) :
    Returns action builder fun _ after => Signing source known after memo :=
  fun result after returned => signing.step ((stays builder).of_ok returned).types
    (by rw [(settled result after returned).signatures])

theorem emit (signing : Signing source known builder memo) (op : Operation) (ty : Ty) :
    Returns (Build.emitTemp op ty) builder fun _ after => Signing source known after memo :=
  signing.settled (Build.stays_emitTemp op ty) (Build.settled_emitTemp op ty)

/-- A new function comes behind those that are there. -/
theorem declare (signing : Signing source known builder memo) (name : String)
    (params : List Ir.Param) (ret : Ty) :
    Returns (Build.declare fun target => target.declareFunction name params ret) builder
      fun _ after => Signing source known after memo := by
  refine Build.returns_declare fun func target declared =>
    signing.step (Module.declareFunction_elsewhere declared).1 ?_
  rcases Module.declareFunction_ok declared with ⟨missing, rfl, rfl⟩ | ⟨rfl, _⟩
  · exact ⟨_, (@Module.signatures_addFunction _ (.declared name params ret) missing).symm⟩
  · exact List.prefix_rfl

theorem store (signing : Signing source known builder memo) (address value : Value) :
    Returns (Build.store address value) builder fun _ after => Signing source known after memo :=
  Build.returns_store signing (fun signing _ => signing.emit _ _)
    (fun signing => signing.declare _ _ _)
    fun _ => signing.step rfl (by rw [Module.signatures_modifyBlock])

theorem start (source : Source) (options : Options) :
    Signing source [] (Context.start options).builder (Context.start options).memo :=
  ⟨.start source _, rfl, List.nil_prefix⟩

/-- A step of the type mapping touches no function. -/
theorem mapType (formed : source.WellFormed) (signing : Signing source known builder memo)
    (ty : TypeId) :
    Ends (mapType source ty) ⟨memo, builder.target⟩
      (fun mapped after => Signing source known { builder with target := after.target } after.memo ∧
        after.target.functions = builder.target.functions ∧ mapped = source.translation ty)
      fun _ _ => False := by
  have only := (ensures_mapTypeWithin source source.typeDepth ty ⟨memo, builder.target⟩).ends
  refine ((ends_mapType formed.mappable signing.truthful signing.idle ty).and only).mono ?_
    fun _ _ failed => failed.1
  rintro mapped after ⟨⟨⟨truthful, idle⟩, right⟩, same⟩
  refine ⟨⟨truthful, idle, ?_⟩, same.functions, right⟩
  rw [Module.signatures, same.functions]
  exact signing.grown

end Signing

/-- The rules of a run that keeps the functions that are there. -/
def Regime.signing (source : Source) (known : List Function) : Regime where
  holds := Signing source known
  excused _ := True
  frames _ := True
  mine _ := True
  own _ := True
  free _ := True
  mapped ty mapped := mapped = source.translation ty
  yields _ _ := True
  joins _ _ := True
  answers _ := True
  returns _ := True

namespace Regime.signing

variable {source : Source} {known : List Function}

theorem steady (formed : source.WellFormed) : (Regime.signing source known).Steady source where
  pardons _ _ := trivial
  current _ _ := trivial
  here _ _ := trivial
  emits signing _ := signing.emit _ _
  reserves signing := signing.settled (Build.stays_alloca _ _) (Build.settled_alloca _ _)
  stores signing := signing.store _ _
  pins signing := signing.settled (Build.stays_pin _) (Build.settled_pin _)
  opens signing := (signing.settled (Build.stays_newBlock _) (Build.settled_newBlock _)).mono
    fun _ _ kept => ⟨kept, trivial, trivial⟩
  moves {builder memo func block} signing _ _ := fun result after returned =>
    signing.step ((Build.ends_positionAt func block builder).of_ok returned).2
      (by rw [(Build.settled_positionAt func block result after returned).signatures])
  closes {builder memo terminator} signing _ _ := fun result after returned =>
    signing.step ((Build.ends_terminate terminator builder).of_ok returned).2
      (by rw [(Build.settled_terminate terminator result after returned).signatures])
  declares signing := signing.declare _ _ _
  defines {builder memo global} signing := Build.returns_declare fun _ _ declared =>
    signing.step (Module.declareGlobal_elsewhere declared).1
      (by rw [Module.signatures, Module.signatures, (Module.declareGlobal_elsewhere declared).2])
  maps ty signing := (signing.mapType formed ty).mono (fun _ _ ended => ⟨ended.1, ended.2.2⟩)
    fun _ _ _ => trivial
  loops _ _ _ := trivial
  targets _ _ := trivial
  answers _ _ := trivial

theorem fits (kind : ExprKind) (ty : TypeId) : (Regime.signing source known).Fits kind ty :=
  .of_trivial (fun _ _ => trivial) (fun _ => trivial) (fun _ _ => trivial) kind ty

/-- The first block of a function is entered before its body is lowered. -/
theorem lowerFunction (formed : source.WellFormed) (decl : FunctionDecl) (func : FuncId)
    (context : Context) :
    Keeps (Regime.signing source known) id (lowerFunction source decl func) context
      fun _ _ => True := by
  have steady : (Regime.signing source known).Steady source := steady formed
  unfold Lowering.lowerFunction
  split
  · exact .pure trivial
  · next body _ =>
    have entered : Keeps (Regime.signing source known) id (build (Build.ensureEntry func)) context
        fun _ _ => True :=
      (steady.step (fun _ => True) (Build.stays_ensureEntry func) fun signing =>
        (signing.settled (Build.stays_ensureEntry func) (Build.settled_ensureEntry func)).mono
          fun _ _ kept => ⟨kept, trivial⟩).mono fun _ _ _ => trivial
    refine entered.bind fun entry _ _ => ?_
    refine (steady.ask (Build.fair_getFunction func)).bind fun function _ _ => ?_
    refine (steady.positionAt trivial trivial).bind fun _ _ _ => ?_
    exact steady.body trivial
      (steady.within trivial fits (fun _ _ => trivial) _ source.exprDepth body).expr
      fun _ _ => trivial

end Regime.signing

/-! ### What a run keeps -/

section Runs

variable {source : Source} {known : List Function} {before after : Context} {options : Options}

theorem Signing.of_returned {α : Type} {action : LowerM α} {result : α} {post : α → Context → Prop}
    (keeps : Keeps (Regime.signing source known) id action before post)
    (signing : Signing source known before.builder before.memo)
    (returned : action before = .ok result after) :
    Signing source known after.builder after.memo :=
  ((keeps ⟨signing, trivial⟩).of_ok returned).2.1.holds

/-- The functions that a state knows stay through any step. -/
theorem Source.Step.signing (step : source.Step before after) (formed : source.WellFormed)
    (signing : Signing source known before.builder before.memo) :
    Signing source known after.builder after.memo := by
  have steady : (Regime.signing source known).Steady source := Regime.signing.steady formed
  cases step with
  | item item returned => exact .of_returned (steady.declareItem item) signing returned
  | signature decl func returned => exact .of_returned (steady.declareFn decl) signing returned
  | symbol link ty span func returned =>
    exact .of_returned (steady.functionForSymbol link ty span) signing returned
  | text text value returned => exact .of_returned (steady.internString text) signing returned
  | expr taken expr value returned =>
    have lowers := steady.within trivial Regime.signing.fits (fun _ _ => trivial) taken
      source.exprDepth expr
    exact .of_returned (lowers.expr before) signing returned
  | body decl func returned =>
    exact .of_returned (Regime.signing.lowerFunction formed decl func before) signing returned

theorem Source.Leads.signing (leads : source.Leads before after) (formed : source.WellFormed)
    (signing : Signing source known before.builder before.memo) :
    Signing source known after.builder after.memo := by
  induction leads with
  | refl => exact signing
  | tail _ step inductionHypothesis => exact step.signing formed inductionHypothesis

/-- What is remembered about types is right in every state of a run. -/
theorem signing_of_reached (formed : source.WellFormed)
    (reached : source.Leads (Context.start options) before) :
    Signing source before.builder.target.signatures before.builder before.memo := by
  have signing := reached.signing formed (.start source options)
  exact ⟨signing.truthful, signing.idle, List.prefix_rfl⟩

/-- A function keeps its position, its name and its type. -/
theorem Source.Leads.bears (leads : source.Leads before after) (formed : source.WellFormed)
    (signing : Signing source before.builder.target.signatures before.builder before.memo)
    {func : FuncId} {function : Function}
    (found : before.builder.target.function? func = some function) : ∃ later,
    after.builder.target.function? func = some later ∧ later.bare = function.bare := by
  have grown := (leads.signing formed signing).grown
  have stored : before.builder.target.signatures[func.index]? = some function.bare := by
    rw [Module.getElem?_signatures, found, Option.map_some]
  obtain ⟨more, grown⟩ := grown
  have kept : after.builder.target.signatures[func.index]? = some function.bare := by
    rw [← grown, List.getElem?_append_left (List.getElem?_eq_some_iff.1 stored).1, stored]
  rw [Module.getElem?_signatures] at kept
  exact Option.map_eq_some_iff.1 kept

end Runs

/-! ### Symbols -/

section Symbols

variable {source : Source} {options : Options} {context : Context} {known : List Function}

/-- Nothing in the module has this name. -/
theorem missing_of_functionByName? {target : Module} {name : String}
    (missing : target.functionByName? name = none) :
    target.functionId? name = none ∧ ∀ function ∈ target.signatures, function.name ≠ name := by
  unfold Module.functionByName? at missing
  cases first : target.functionId? name with
  | some func =>
    obtain ⟨function, found, _⟩ := Module.functionId?_eq_some_iff.1 first
    rw [first, Option.bind_eq_bind, Option.bind_some, found] at missing
    cases missing
  | none =>
    refine ⟨rfl, fun function member named => ?_⟩
    obtain ⟨func, found⟩ := Module.functionId?_of_mem member
    rw [named, first] at found
    cases found

theorem found_of_functionByName? {target : Module} {name : String} {function : Function}
    (present : target.functionByName? name = some function) :
    ∃ func, target.functionId? name = some func ∧ target.function? func = some function ∧
      function.name = name := by
  obtain ⟨func, first, found⟩ := Option.bind_eq_some_iff.1 present
  obtain ⟨function', found', named⟩ := Module.functionId?_eq_some_iff.1 first
  cases found.symm.trans found'
  exact ⟨func, first, found, named⟩

theorem Signing.lowerType (formed : source.WellFormed)
    (signing : Signing source known context.builder context.memo) (ty : TypeId) :
    Ends (lowerType source ty) context
      (fun mapped after => (Signing source known after.builder after.memo ∧
        after.builder.target.functions = context.builder.target.functions) ∧
          mapped = source.translation ty) fun _ _ => False := by
  have ended := signing.mapType formed ty
  unfold Ends Lowering.lowerType mapping at *
  cases returned : Lowering.mapType source ty ⟨context.memo, context.builder.target⟩ with
  | error cause after =>
    rw [returned] at ended
    exact ended
  | ok mapped after =>
    rw [returned] at ended
    obtain ⟨kept, same, right⟩ := ended
    exact ⟨⟨kept, same⟩, right⟩

/-- Numbered parameters have the types they are numbered for. -/
theorem map_ty_numberParams (types : List Ty) : (numberParams types).map Ir.Param.ty = types :=
  List.ext_getElem? fun position => by simp [numberParams, Function.comp_def]

/-- A function of a new name is added at the end, as long as there is room. -/
theorem ends_declareNew {name : String} {params : List Ir.Param} {ret : Ty}
    (missing : ∀ function ∈ context.builder.target.signatures, function.name ≠ name) :
    Ends (build (Build.declare fun target => target.declareFunction name params ret)) context
      (fun func after => ∃ function, after.builder.target.function? func = some function ∧
        function.Bears name (.func (params.map Param.ty) ret))
      fun cause _ => cause = .ir .tooManyFunctions := by
  unfold Ends build Build.declare
  dsimp only
  have missing := Module.functionId?_of_unnamed missing
  by_cases room : context.builder.target.functions.size < idLimit
  · rw [Module.declareFunction_of_missing missing room]
    exact ⟨.declared name params ret, Array.getElem?_push_size .., rfl, rfl⟩
  · rw [Module.declareFunction_of_full missing room]

/-- What a symbol stands for when no function has its name. -/
theorem Signing.declaresSymbol (formed : source.WellFormed)
    (signing : Signing source known context.builder context.memo) {link : Name}
    (missing : context.builder.target.functionByName? (source.names.text link) = none)
    (ty : TypeId) (span : Span) :
    Ends (functionForSymbol source link ty span) context
      (fun func after => source.program.types.IsFunction ty ∧
        ∃ function, after.builder.target.function? func = some function ∧
          function.Bears (source.names.text link) (source.translation ty))
      fun cause _ => source.program.types.IsFunction ty ∧ cause = .ir .tooManyFunctions ∨
        ¬ source.program.types.IsFunction ty ∧
          cause = .notAFunction (source.names.text link) span := by
  obtain ⟨unknown, missing⟩ := missing_of_functionByName? missing
  unfold functionForSymbol
  rw [ends_bind, ends_get, unknown]
  dsimp only
  cases kind : source.program.types.kind ty with
  | function params ret =>
    have function : source.program.types.IsFunction ty := ⟨params, ret, kind⟩
    have translated : source.translation ty =
        .func (params.map source.translation) (source.translation ret) := by
      rw [formed.mappable.translation_eq, kind, translateShape]
    rw [ends_bind]
    refine (Ends.mapM (fun param _ state (kept : Signing source known state.builder state.memo ∧
      state.builder.target.functions = context.builder.target.functions) =>
        (kept.1.lowerType formed param).mono (fun _ _ ended => ⟨⟨ended.1.1, ended.1.2.trans kept.2⟩,
          ended.2⟩) fun _ _ => id) ⟨signing, rfl⟩).mono ?_ fun _ _ => False.elim
    rintro types first ⟨⟨signing', same⟩, each⟩
    obtain rfl := eq_map_of_forall₂ each
    rw [ends_bind]
    refine (signing'.lowerType formed ret).mono ?_ fun _ _ => False.elim
    rintro _ second ⟨⟨_, same'⟩, rfl⟩
    have missing' : ∀ function ∈ second.builder.target.signatures,
        function.name ≠ source.names.text link := by
      rw [Module.signatures, same', same]
      exact missing
    refine (ends_declareNew missing').mono (fun func after declared => ⟨function, ?_⟩)
      fun _ _ full => .inl ⟨function, full⟩
    obtain ⟨added, found, named, signed⟩ := declared
    refine ⟨added, found, named, signed.trans ?_⟩
    rw [translated, map_ty_numberParams]
  | _ =>
    refine .inr ⟨fun function => ?_, rfl⟩
    obtain ⟨_, _, function⟩ := function
    cases kind.symm.trans function

/-- In every state of a run, a symbol stands for one function for good. If a function has the name
already, it is this one, whatever type the symbol is resolved to. If not, a symbol of a function type
gets a function of that type, and any other is refused. -/
theorem functionForSymbol_settles (formed : source.WellFormed)
    (reached : source.Leads (Context.start options) context) (link : Name) (ty : TypeId)
    (span : Span) :
    Ends (functionForSymbol source link ty span) context
      (fun func after => ∃ signature,
        (∀ later, source.Leads after later → ∃ function,
          later.builder.target.function? func = some function ∧
            function.Bears (source.names.text link) signature) ∧
        match context.builder.target.functionByName? (source.names.text link) with
        | some function => after = context ∧ signature = function.signature
        | none => source.program.types.IsFunction ty ∧ signature = source.translation ty)
      fun cause _ =>
        context.builder.target.functionByName? (source.names.text link) = none ∧
          (source.program.types.IsFunction ty ∧ cause = .ir .tooManyFunctions ∨
            ¬ source.program.types.IsFunction ty ∧
              cause = .notAFunction (source.names.text link) span) := by
  have signing := signing_of_reached formed reached
  cases present : context.builder.target.functionByName? (source.names.text link) with
  | some function =>
    obtain ⟨func, first, found, named⟩ := found_of_functionByName? present
    have answered : functionForSymbol source link ty span context = .ok func context := by
      unfold functionForSymbol
      have asked : (get : LowerM Context) context = .ok context context := rfl
      rw [run_bind asked, first]
      rfl
    rw [Ends, answered]
    refine ⟨function.signature, fun later leads => ?_, rfl, rfl⟩
    obtain ⟨kept, stored, same⟩ := leads.bears formed signing found
    exact ⟨kept, stored, .of_bare ⟨named, rfl⟩ same⟩
  | none =>
    have declared := signing.declaresSymbol formed present ty span
    cases answered : functionForSymbol source link ty span context with
    | error cause after =>
      rw [Ends, answered] at declared ⊢
      exact ⟨rfl, declared⟩
    | ok func after =>
      rw [Ends, answered] at declared ⊢
      obtain ⟨isFunction, function, found, bears⟩ := declared
      refine ⟨source.translation ty, fun later leads => ?_, isFunction, rfl⟩
      have step : source.Step context after := .symbol link ty span func answered
      obtain ⟨kept, stored, same⟩ :=
        leads.bears formed (signing_of_reached formed (reached.tail step)) found
      exact ⟨kept, stored, bears.of_bare same⟩

/-! ### One name for two functions -/

/-- The name `f`, and the types `fn()` and `fn(i32) -> i32`. -/
def overloaded : Source where
  names := (NameTable.initial.intern "f").2
  program :=
    { types := ((TypePool.initial.intern (.function [] .unit)).2.intern
        (.function [.i32] .i32)).2
      scopes := .initial
      arena := ⟨#[]⟩
      items := [] }

theorem overloaded_wellFormed : overloaded.WellFormed :=
  .of_ordered (.intern (.intern .initial (by simp)) (by simp)) (by decide +kernel) (by decide)
    (.intern .initial _) (by decide +kernel) (by decide) (by decide +kernel)

/-- The first symbol of a name gets the type it is resolved to, and keeps it. -/
theorem overloaded_settles : overloaded.Leads (Context.start .standard) (Context.start .standard) ∧
    ∃ func after, functionForSymbol overloaded ⟨1⟩ ⟨12⟩ .nowhere (Context.start .standard) =
      .ok func after ∧ ∀ later, overloaded.Leads after later → ∃ function,
        later.builder.target.function? func = some function ∧
          function.Bears "f" (.func [.i32] .i32) := by
  have answered : ∃ func after, functionForSymbol overloaded ⟨1⟩ ⟨12⟩ .nowhere
      (Context.start .standard) = .ok func after := ⟨_, _, by cbv⟩
  obtain ⟨func, after, answered⟩ := answered
  refine ⟨.refl, func, after, answered, ?_⟩
  obtain ⟨signature, kept, settled⟩ :=
    (functionForSymbol_settles overloaded_wellFormed .refl ⟨1⟩ ⟨12⟩ .nowhere).of_ok answered
  have missing : (Context.start .standard).builder.target.functionByName?
      (overloaded.names.text ⟨1⟩) = none := by cbv
  have named : overloaded.names.text ⟨1⟩ = "f" := by decide +kernel
  have translated : overloaded.translation ⟨12⟩ = .func [.i32] .i32 := by decide +kernel
  simp only [missing] at settled
  rw [settled.2, translated, named] at kept
  exact kept

/-- After `fn()` has been called by the name `f`, the same function is handed out for a symbol `f` of
type `fn(i32) -> i32`, and for one that is no function at all. -/
theorem overloaded_disregarded : overloaded.WellFormed ∧ ∃ context func function,
    overloaded.Leads (Context.start .standard) context ∧
      context.builder.target.function? func = some function ∧
      functionForSymbol overloaded ⟨1⟩ ⟨12⟩ .nowhere context = .ok func context ∧
      overloaded.program.types.IsFunction ⟨12⟩ ∧
      function.signature ≠ overloaded.translation ⟨12⟩ ∧
      functionForSymbol overloaded ⟨1⟩ .i32 .nowhere context = .ok func context ∧
      ¬ overloaded.program.types.IsFunction .i32 := by
  have first : functionForSymbol overloaded ⟨1⟩ ⟨11⟩ .nowhere (Context.start .standard) =
      .ok ⟨0⟩ { Context.start .standard with
        memo := ⟨[(.unit, .unit)], []⟩
        builder := { (Context.start .standard).builder with
          target := (Module.empty "main").addFunction (.declared "f" [] .unit) rfl } } := by cbv
  refine ⟨overloaded_wellFormed, _, ⟨0⟩, _, .single (.symbol _ _ _ _ first), rfl, by cbv,
    ⟨[.i32], .i32, by decide +kernel⟩, by decide +kernel, by cbv, ?_⟩
  have scalar : overloaded.program.types.kind .i32 = .i32 := by decide +kernel
  rintro ⟨params, ret, function⟩
  cases scalar.symm.trans function

end Symbols

end TreeLowering.Lowering
