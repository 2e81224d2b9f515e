/-
This file proves that declaring things keeps what is there. Mapping a type, declaring a constant or
a function and meeting a string literal add to a module; the functions in it stay as they are, and
those that are added have no body.
-/

import TreeLowering.Proofs.Ensures
import TreeLowering.Proofs.Tables.Module

namespace TreeLowering.Ir.Module

/-- The second module has the functions of the first one, and others without a body. -/
structure Declares (first second : Module) : Prop where
  kept : ∀ func function, first.function? func = some function →
    second.function? func = some function
  added : ∀ func function, first.function? func = none → second.function? func = some function →
    function.isDeclaration = true

theorem Declares.of_functions {first second : Module} (same : second.functions = first.functions) :
    Declares first second := by
  have equal : ∀ func, second.function? func = first.function? func := fun func => by
    rw [Tables.function?, same, Tables.function?]
  refine ⟨fun func function found => (equal func).trans found, fun func function missing found => ?_⟩
  rw [equal, missing] at found
  cases found

theorem Declares.trans {first second third : Module} (earlier : Declares first second)
    (later : Declares second third) : Declares first third := by
  refine ⟨fun func function found => later.kept func function (earlier.kept func function found),
    fun func function missing found => ?_⟩
  cases middle : second.function? func with
  | none => exact later.added func function middle found
  | some function' =>
    rw [later.kept func function' middle] at found
    cases found
    exact earlier.added func function missing middle

/-- A function that is added has no body. -/
theorem Declares.addFunction {target : Module} {name : String} {params : List Param} {ret : Ty}
    (missing : target.functionId? name = none) :
    Declares target (target.addFunction (.declared name params ret) missing) := by
  have equal := @function?_addFunction target (.declared name params ret) missing
  have old : ∀ {func function}, target.function? func = some function →
      func.index ≠ target.functions.size := by
    intro func function found
    obtain ⟨bound, _⟩ := Array.getElem?_eq_some_iff.1 found
    exact Nat.ne_of_lt bound
  refine ⟨fun func function stored => ?_, fun func function absent stored => ?_⟩
  · rw [equal, if_neg (old stored), stored]
  · rw [equal] at stored
    split at stored
    · cases stored
      rfl
    · rw [absent] at stored
      cases stored

/-- Declaring a function either finds the one of that name or adds it. -/
theorem declareFunction_spec {target second : Module} {name : String} {params : List Param}
    {ret : Ty} {func : FuncId}
    (declared : target.declareFunction name params ret = .ok func second) :
    Declares target second ∧
      ∃ function, second.function? func = some function ∧ function.name = name := by
  rcases declareFunction_ok declared with ⟨missing, rfl, rfl⟩ | ⟨rfl, _, existing, found, named, _⟩
  · refine ⟨.addFunction missing, .declared name params ret, ?_, rfl⟩
    exact (@function?_addFunction target (.declared name params ret) missing _).trans (if_pos rfl)
  · exact ⟨.of_functions rfl, existing, found, named⟩

theorem getFunction_of_found {target : Module} {func : FuncId} {function : Function}
    (found : target.function? func = some function) : target.getFunction func = .ok function := by
  rw [getFunction, found]

theorem functionRef_of_found {target : Module} {func : FuncId} {function : Function}
    (found : target.function? func = some function) :
    target.functionRef func = .ok (.global function.name function.signature) := by
  unfold functionRef
  rw [getFunction, found]
  rfl

end TreeLowering.Ir.Module

namespace TreeLowering.Lowering

open TreeLowering.Ir TreeLowering.Tree

/-! ### Types -/

/-- The module after a step differs from the module before it in its struct types only. -/
def OnlyTypes (before after : TypeState) : Prop :=
  after.target.name = before.target.name ∧ after.target.globals = before.target.globals ∧
    after.target.functions = before.target.functions

namespace OnlyTypes

theorem refl (state : TypeState) : OnlyTypes state state := ⟨rfl, rfl, rfl⟩

theorem trans {first second third : TypeState} (earlier : OnlyTypes first second)
    (later : OnlyTypes second third) : OnlyTypes first third :=
  ⟨later.1.trans earlier.1, later.2.1.trans earlier.2.1, later.2.2.trans earlier.2.2⟩

theorem functions {before after : TypeState} (only : OnlyTypes before after) :
    after.target.functions = before.target.functions := only.2.2

theorem globals {before after : TypeState} (only : OnlyTypes before after) :
    after.target.globals = before.target.globals := only.2.1

theorem declareName (state : TypeState) (memo : TypeMemo) (name : String) :
    OnlyTypes state ⟨memo, state.target.declareName name⟩ := by
  rcases Option.eq_none_or_eq_some (state.target.typeDef? name) with missing | ⟨entry, found⟩
  · rw [Module.declareName_of_none missing]
    exact ⟨rfl, rfl, rfl⟩
  · rw [Module.declareName_of_some found]
    exact ⟨rfl, rfl, rfl⟩

end OnlyTypes

section Steps

variable {state : TypeState}

@[simp] theorem ensures_whileOpen {α : Type} (ty : TypeId) (name : String) (action : TypeM α)
    (post : α → TypeState → Prop) :
    Ensures (TypeM.whileOpen ty name action) state post ↔
      Ensures (TypeM.openStruct ty name) state fun _ opened =>
        Ensures action opened fun result after => post result (TypeM.closeStruct ty after) := by
  rw [← ensures_bind, ← seqRight_eq_bind]
  unfold Ensures TypeM.whileOpen
  cases (TypeM.openStruct ty name *> action) state <;> rfl

theorem ensures_declareStruct (name : String) (fields : List Ty) :
    Ensures (TypeM.declareStruct name fields) state fun _ after =>
      OnlyTypes state after ∧ after.memo = state.memo := by
  unfold Ensures TypeM.declareStruct
  rcases state.target.declareType_cases name fields with ⟨_, declared⟩ | ⟨_, _, _, declared⟩ |
    ⟨_, declared⟩ | ⟨_, _, _, declared⟩ <;> rw [declared]
  · exact ⟨⟨rfl, rfl, rfl⟩, rfl⟩
  · exact ⟨⟨rfl, rfl, rfl⟩, rfl⟩
  · exact ⟨.refl state, rfl⟩
  · rfl

variable {source : Source} {mapPart : TypeId → TypeM Ty}

theorem ensures_mapStruct
    (part : ∀ ty state, Ensures (mapPart ty) state fun _ after => OnlyTypes state after)
    (ty : TypeId) (definition : StructDef) :
    Ensures (mapStruct source mapPart ty definition) state fun _ after =>
      OnlyTypes state after := by
  unfold mapStruct
  rw [ensures_bind, ensures_get]
  split
  · exact .refl state
  · rw [ensures_bind, ensures_whileOpen]
    unfold TypeM.openStruct
    rw [ensures_modify]
    refine (ensures_mapM OnlyTypes.refl OnlyTypes.trans fun field _ state =>
      part field.2 state).mono fun fields middle kept => ?_
    rw [ensures_bind]
    refine (ensures_declareStruct _ fields).mono fun _ after ⟨kept', _⟩ => ?_
    have opened : OnlyTypes state
        ⟨{ state.memo with pending := ty :: state.memo.pending },
          state.target.declareName (source.names.text definition.name)⟩ := .declareName ..
    have closed : OnlyTypes middle (TypeM.closeStruct ty middle) := ⟨rfl, rfl, rfl⟩
    exact ((opened.trans kept).trans closed).trans kept'

/-- What mapping the parts of a shape does to the state is done by mapping the shape. -/
theorem ensures_mapShape {relation : TypeState → TypeState → Prop}
    (refl : ∀ state, relation state state)
    (trans : ∀ {first second third}, relation first second → relation second third →
      relation first third)
    (part : ∀ ty state, Ensures (mapPart ty) state fun _ after => relation state after)
    (kind : TypeKind) :
    Ensures (mapShape source mapPart kind) state fun _ after => relation state after := by
  cases kind <;> unfold mapShape
  case reference pointee mutable =>
    rw [ensures_bind]
    refine (part pointee state).mono fun mapped after kept => ?_
    split <;> exact kept
  case array elem len =>
    rw [ensures_bind]
    exact part elem state
  case slice elem =>
    rw [ensures_bind]
    exact part elem state
  case function params ret =>
    rw [ensures_bind]
    refine (ensures_mapM refl trans fun ty _ state => part ty state).mono fun mapped middle kept => ?_
    rw [ensures_bind]
    exact (part ret middle).mono fun _ after kept' => trans kept kept'
  all_goals exact refl state

end Steps

/-- Mapping a type only adds struct types, however deep it goes. -/
theorem ensures_mapTypeWithin (source : Source) (fuel : Nat) (ty : TypeId) (state : TypeState) :
    Ensures (mapTypeWithin source fuel ty) state fun _ after => OnlyTypes state after := by
  induction fuel generalizing ty state with
  | zero => rfl
  | succ fuel inductionHypothesis =>
    unfold mapTypeWithin
    rw [ensures_bind, ensures_get]
    split
    · exact .refl state
    · split
      · exact ensures_mapStruct inductionHypothesis ty _
      · rw [ensures_bind]
        exact ensures_mapShape OnlyTypes.refl OnlyTypes.trans inductionHypothesis _

/-! ### Steps of a run -/

/-- Declaring a function yields the position of a function of that name. -/
theorem ensures_declareFunction {builder : Builder} (name : String) (params : List Ir.Param)
    (ret : Ty) :
    Ensures (Build.declare fun target => target.declareFunction name params ret) builder
      fun func after => ∃ target, builder.target.Declares target ∧ after = { builder with target } ∧
        ∃ function, target.function? func = some function ∧ function.name = name := by
  unfold Ensures Build.declare
  simp only
  cases declared : builder.target.declareFunction name params ret with
  | error cause target =>
    obtain ⟨-, ⟨_, _, rfl⟩ | ⟨_, _, _, _, _, rfl⟩⟩ := Module.declareFunction_error declared <;> rfl
  | ok func target =>
    obtain ⟨declares, found⟩ := Module.declareFunction_spec declared
    exact ⟨_, declares, rfl, found⟩

/-- Only declarations were added. -/
structure Quietly (before after : Context) : Prop where
  declares : before.builder.target.Declares after.builder.target
  builder : after.builder = { before.builder with target := after.builder.target }
  env : after.env = before.env
  scope : after.scope = before.scope

namespace Quietly

theorem refl (context : Context) : Quietly context context :=
  ⟨.of_functions rfl, rfl, rfl, rfl⟩

theorem trans {first second third : Context} (earlier : Quietly first second)
    (later : Quietly second third) : Quietly first third := by
  refine ⟨earlier.declares.trans later.declares, ?_, later.env.trans earlier.env,
    later.scope.trans earlier.scope⟩
  rw [later.builder, earlier.builder]

end Quietly

section Quiet

variable {context : Context}

theorem ensures_lowerType (source : Source) (ty : TypeId) :
    Ensures (lowerType source ty) context fun _ after => Quietly context after := by
  unfold lowerType mapType
  rw [ensures_mapping]
  exact (ensures_mapTypeWithin source _ ty _).mono fun _ after kept =>
    ⟨.of_functions kept.functions, rfl, rfl, rfl⟩

theorem ensures_declareGlobal (global : Global) :
    Ensures (build (Build.declare fun target => target.declareGlobal global)) context
      fun _ after => Quietly context after := by
  rw [ensures_build]
  unfold Ensures Build.declare
  rcases context.builder.target.declareGlobal_cases global with ⟨_, declared⟩ | ⟨_, declared⟩ |
    ⟨_, _, _, declared⟩ <;> simp only [declared]
  · exact ⟨.of_functions rfl, rfl, rfl, rfl⟩
  · exact .refl context
  · rfl

theorem ensures_declareFn (source : Source) (decl : FunctionDecl) :
    Ensures (declareFn source decl) context fun func after => Quietly context after ∧
      ∃ function, after.builder.target.function? func = some function ∧
        function.name = source.names.text decl.link := by
  unfold declareFn
  rw [ensures_bind]
  refine (ensures_mapM Quietly.refl Quietly.trans fun param _ context => ?_).mono
    fun params first kept => ?_
  · rw [ensures_bind]
    exact ensures_lowerType source param.ty
  rw [ensures_bind]
  refine (ensures_lowerType source decl.ret).mono fun ret second kept' => ?_
  rw [ensures_build]
  refine (ensures_declareFunction _ params ret).mono ?_
  rintro func _ ⟨target, declares, rfl, found⟩
  exact ⟨(kept.trans kept').trans ⟨declares, rfl, rfl, rfl⟩, found⟩

/-- The function a symbol stands for exists. -/
theorem ensures_functionForSymbol (source : Source) (link : Name) (ty : TypeId) (span : Span) :
    Ensures (functionForSymbol source link ty span) context fun func after =>
      Quietly context after ∧ ∃ function, after.builder.target.function? func = some function := by
  unfold functionForSymbol
  rw [ensures_bind, ensures_get]
  cases found : context.builder.target.functionId? (source.names.text link) with
  | some func =>
    obtain ⟨function, stored, _⟩ := Module.functionId?_eq_some_iff.1 found
    exact ⟨.refl context, function, stored⟩
  | none =>
    simp only
    split
    · next params ret kind =>
      rw [ensures_bind]
      refine (ensures_mapM Quietly.refl Quietly.trans fun ty _ context =>
        ensures_lowerType source ty).mono fun types first kept => ?_
      rw [ensures_bind]
      refine (ensures_lowerType source ret).mono fun ret second kept' => ?_
      rw [ensures_build]
      refine (ensures_declareFunction _ _ ret).mono ?_
      rintro func _ ⟨target, declares, rfl, function, stored, _⟩
      exact ⟨(kept.trans kept').trans ⟨declares, rfl, rfl, rfl⟩, function, stored⟩
    · rfl

theorem ensures_declareConst (source : Source) (decl : ConstDecl) :
    Ensures (declareConst source decl) context fun _ after => Quietly context after := by
  unfold declareConst
  rw [ensures_bind]
  refine (ensures_lowerType source decl.ty).mono fun ty first kept => ?_
  exact (ensures_declareGlobal _).mono fun _ second kept' => kept.trans kept'

theorem ensures_declareItem (source : Source) (item : Item) :
    Ensures (declareItem source item) context fun _ after => Quietly context after := by
  cases item with
  | struct decl =>
    rw [declareItem, ensures_discard]
    exact ensures_lowerType source decl.ty
  | const decl =>
    rw [declareItem, ensures_discard]
    exact ensures_declareConst source decl
  | function decl => exact .refl context
  | methods group => exact .refl context

theorem ensures_internString (text : String) :
    Ensures (internString text) context fun _ after => Quietly context after := by
  unfold internString
  rw [ensures_bind, ensures_get]
  dsimp only
  split
  · exact .refl context
  · rw [ensures_bind]
    refine (ensures_declareGlobal _).mono fun address first kept => ?_
    rw [ensures_bind, ensures_modify, ensures_pure]
    exact ⟨kept.declares, kept.builder, kept.env, kept.scope⟩

end Quiet

end TreeLowering.Lowering
