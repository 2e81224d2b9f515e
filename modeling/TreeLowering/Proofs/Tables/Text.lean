/-
This file proves the laws of string literals. Each text has a global of its own, which holds its
bytes: the text that came in as number `n` is kept under the name `.str.n`. Declarations of any kind
may come between and may fail. A text keeps its global, two texts never share one, and a text is
refused only when the name of its global is taken by another global.
-/

import TreeLowering.Proofs.Flow.Name
import TreeLowering.Proofs.Tables.Declaration
import TreeLowering.Proofs.Tables.Reference
import TreeLowering.Proofs.Types.Address

namespace TreeLowering.Ir

/-- The global holds the bytes of the text, and `len` is their number in its type. A length is kept
in a word of 64 bits, which is exact for every text that has fewer bytes than there are words. -/
def Global.Spells (global : Global) (text : String) (len : UInt64) : Prop :=
  global.init = .bytes text.toUTF8.toList ∧ global.ty = .array .u8 len ∧
    (text.toUTF8.toList.length < UInt64.size → len.toNat = text.toUTF8.toList.length)

namespace Module

/-- What is found under a name in the first module is found there in the second one. -/
def Retains (first second : Module) : Prop :=
  ∀ name global, first.global? name = some global → second.global? name = some global

variable {target second third : Module}

theorem Retains.of_globals (same : second.globals = target.globals) : target.Retains second := by
  intro called global found
  rwa [global?_of_globals same]

theorem Retains.trans (earlier : target.Retains second) (later : second.Retains third) :
    target.Retains third :=
  fun called global found => later called global (earlier called global found)

/-- Where every entry stays in its place, every global is found as before. -/
theorem Retains.of_endures (endures : target.toTables.Endures second.toTables) :
    target.Retains second := by
  intro called global found
  obtain ⟨position, stored, named⟩ := (target.inStep.indexed.globals _ _).1 found
  exact (second.inStep.indexed.globals _ _).2
    ⟨position, endures.globals position global stored, named⟩

/-- Declares what is asked for. -/
def declare (target : Module) (declaration : Declaration) : EStateM.Result Error Module Handle :=
  target.carry (target.toTables.declare declaration) (target.inStep.declare declaration)

/-- The declaration takes no global away when it is accepted, and changes nothing when it is
refused. -/
def Spares {α : Type} (declaration : Module → EStateM.Result Error Module α) : Prop :=
  ∀ target, (∃ answer second, declaration target = .ok answer second ∧ target.Retains second) ∨
    ∃ cause, declaration target = .error cause target

theorem spares_declare (declaration : Declaration) :
    Spares fun target => target.declare declaration := by
  intro target
  rcases target.inStep.declare_cases declaration with ⟨handle, tables, accepted, endures, _⟩ |
    ⟨cause, refused, _⟩
  · have inStep : tables.InStep := by
      have later := target.inStep.declare declaration
      rwa [accepted] at later
    exact .inl ⟨handle, _, carry_ok accepted _ inStep, .of_endures endures⟩
  · exact .inr ⟨cause, carry_error refused _⟩

theorem spares_declareGlobal (global : Global) :
    Spares fun target => target.declareGlobal global := by
  intro target
  dsimp only
  rcases target.declareGlobal_cases global with ⟨_, added⟩ | ⟨_, kept⟩ | ⟨_, _, _, refused⟩
  · exact .inl ⟨_, _, added, (global?_declareGlobal added).2⟩
  · exact .inl ⟨_, _, kept, fun _ _ => id⟩
  · exact .inr ⟨_, refused⟩

theorem spares_declareFunction (called : String) (params : List Param) (ret : Ty) :
    Spares fun target => target.declareFunction called params ret := by
  intro target
  dsimp only
  rcases target.declareFunction_cases called params ret with ⟨_, _, added⟩ | ⟨_, _, refused⟩ |
    ⟨_, _, _, _, _, ⟨_, kept⟩ | ⟨_, refused⟩⟩
  · exact .inl ⟨_, _, added, .of_globals (declareFunction_elsewhere added).2⟩
  · exact .inr ⟨_, refused⟩
  · exact .inl ⟨_, _, kept, fun _ _ => id⟩
  · exact .inr ⟨_, refused⟩

end Module

end TreeLowering.Ir

namespace TreeLowering.Lowering

open TreeLowering.Ir TreeLowering.Tree

/-! ### However it ends -/

/-- However the action ends, the state after it is related to the state before it. -/
def Onward {σ α : Type} (relation : σ → σ → Prop) (action : EStateM Error σ α) : Prop :=
  ∀ state, Ends action state (fun _ => relation state) fun _ => relation state

namespace Onward

variable {σ α β : Type} {relation : σ → σ → Prop} [IsPreorder σ relation]

theorem pure (result : α) : Onward relation (pure result : EStateM Error σ α) :=
  fun state => refl_of relation state

theorem throw (cause : Error) : Onward relation (throw cause : EStateM Error σ α) :=
  fun state => refl_of relation state

theorem get : Onward relation (get : EStateM Error σ σ) := fun state => refl_of relation state

theorem bind {action : EStateM Error σ α} {next : α → EStateM Error σ β}
    (first : Onward relation action) (second : ∀ result, Onward relation (next result)) :
    Onward relation (action >>= next) := by
  intro state
  rw [ends_bind]
  refine (first state).mono (fun result middle earlier => ?_) fun _ _ => id
  exact (second result middle).mono (fun _ _ later => trans_of relation earlier later)
    fun _ _ later => trans_of relation earlier later

omit [IsPreorder σ relation] in
theorem discard {action : EStateM Error σ α} (onward : Onward relation action) :
    Onward relation (discard action) := fun state => (onward state).discard

theorem mapM {action : α → EStateM Error σ β} (each : ∀ item, Onward relation (action item))
    (items : List α) : Onward relation (items.mapM action) := by
  induction items with
  | nil => exact pure []
  | cons item rest inductionHypothesis =>
    rw [List.mapM_cons]
    exact (each item).bind fun result => inductionHypothesis.bind fun results => pure _

end Onward

/-! ### Types -/

instance : IsPreorder TypeState OnlyTypes where
  refl := .refl
  trans _ _ _ := .trans

section Types

variable {source : Source} {mapPart : TypeId → TypeM Ty}

theorem onward_openStruct (ty : TypeId) (name : String) :
    Onward OnlyTypes (TypeM.openStruct ty name) := by
  intro state
  exact OnlyTypes.declareName state _ name

theorem onward_remember (ty : TypeId) (mapped : Ty) :
    Onward OnlyTypes (TypeM.remember ty mapped) := fun _ => ⟨rfl, rfl, rfl⟩

theorem onward_declareStruct (name : String) (fields : List Ty) :
    Onward OnlyTypes (TypeM.declareStruct name fields) := by
  intro state
  unfold Ends
  cases ended : TypeM.declareStruct name fields state with
  | ok _ after => exact ((ensures_declareStruct name fields).of_ok ended).1
  | error cause after =>
    unfold TypeM.declareStruct at ended
    split at ended
    · cases ended
    · next cause target refused =>
      cases ended
      rw [(Module.declareType_error refused).1]
      exact .refl state

/-- The second mark does not touch the module. -/
theorem onward_whileOpen {α : Type} {action : TypeM α} (onward : Onward OnlyTypes action)
    (ty : TypeId) (name : String) : Onward OnlyTypes (TypeM.whileOpen ty name action) := by
  have opened : Onward OnlyTypes (TypeM.openStruct ty name *> action) := by
    rw [seqRight_eq_bind]
    exact (onward_openStruct ty name).bind fun _ => onward
  intro state
  unfold Ends TypeM.whileOpen
  cases ended : (TypeM.openStruct ty name *> action) state with
  | ok result after =>
    have only : OnlyTypes state after := (opened state).of_ok ended
    exact only
  | error cause after =>
    have only : OnlyTypes state after := (opened state).of_error ended
    exact only

theorem onward_mapStruct (part : ∀ ty, Onward OnlyTypes (mapPart ty)) (ty : TypeId)
    (definition : StructDef) : Onward OnlyTypes (mapStruct source mapPart ty definition) := by
  unfold mapStruct
  refine Onward.get.bind fun state => ?_
  split
  · exact .pure _
  · exact (onward_whileOpen (.mapM (fun field : Name × TypeId => part field.2) _) ty _).bind
      fun fields => (onward_declareStruct _ fields).bind fun _ =>
        (onward_remember ty _).bind fun _ => .pure _

theorem onward_mapShape (part : ∀ ty, Onward OnlyTypes (mapPart ty)) (kind : TypeKind) :
    Onward OnlyTypes (mapShape source mapPart kind) := by
  cases kind <;> unfold mapShape
  case reference pointee mutable =>
    refine (part pointee).bind fun mapped => ?_
    split <;> exact .pure _
  case array elem len => exact (part elem).bind fun _ => .pure _
  case slice elem => exact (part elem).bind fun _ => .pure _
  case function params ret =>
    exact (Onward.mapM part params).bind fun _ => (part ret).bind fun _ => .pure _
  all_goals exact .pure _

/-- Mapping a type only adds struct types, also when it fails. -/
theorem onward_mapTypeWithin (source : Source) (fuel : Nat) (ty : TypeId) :
    Onward OnlyTypes (mapTypeWithin source fuel ty) := by
  induction fuel generalizing ty with
  | zero => exact .throw _
  | succ fuel inductionHypothesis =>
    unfold mapTypeWithin
    refine Onward.get.bind fun state => ?_
    split
    · exact .pure _
    · split
      · exact onward_mapStruct inductionHypothesis ty _
      · exact (onward_mapShape inductionHypothesis _).bind fun _ =>
          (onward_remember ty _).bind fun _ => .pure _

end Types

/-! ### Texts and their globals -/

/-- The texts of the table have globals of their own, numbered in the order in which they came. -/
inductive Filed (target : Module) : List (String × Value) → Prop
  | nil : Filed target []
  | cons {strings : List (String × Value)} {text : String} (filed : Filed target strings)
      (fresh : strings.lookup text = none)
      (found : target.global? (stringGlobal strings.length text).name =
        some (stringGlobal strings.length text)) :
      Filed target ((text, (stringGlobal strings.length text).address) :: strings)

namespace Filed

variable {target second : Module} {strings : List (String × Value)} {text other : String}
  {address address' : Value}

theorem mono (filed : Filed target strings) (retains : target.Retains second) :
    Filed second strings := by
  induction filed with
  | nil => exact .nil
  | cons _ fresh found inductionHypothesis =>
    exact .cons inductionHypothesis fresh (retains _ _ found)

/-- The text has the global with some number. -/
theorem lookup (filed : Filed target strings) (known : strings.lookup text = some address) :
    ∃ number < strings.length, address = (stringGlobal number text).address ∧
      target.global? (stringGlobal number text).name = some (stringGlobal number text) := by
  induction filed with
  | nil => cases known
  | @cons strings' first _ _ found inductionHypothesis =>
    by_cases same : text = first
    · subst same
      rw [List.lookup_cons_self, Option.some.injEq] at known
      exact ⟨strings'.length, Nat.lt_succ_self _, known.symm, found⟩
    · rw [List.lookup_cons, beq_eq_false_iff_ne.2 same] at known
      obtain ⟨number, bound, rest⟩ := inductionHypothesis known
      exact ⟨number, Nat.lt_succ_of_lt bound, rest⟩

/-- Two texts have two numbers. -/
theorem apart (filed : Filed target strings) (differ : text ≠ other)
    (known : strings.lookup text = some address) (known' : strings.lookup other = some address') :
    ∃ number number', number ≠ number' ∧ address = (stringGlobal number text).address ∧
      address' = (stringGlobal number' other).address := by
  induction filed with
  | nil => cases known
  | @cons strings' first filed _ _ inductionHypothesis =>
    rw [List.lookup_cons] at known known'
    by_cases here : text = first
    · subst here
      rw [beq_self_eq_true, Option.some.injEq] at known
      rw [beq_eq_false_iff_ne.2 differ.symm] at known'
      obtain ⟨number', bound, right, _⟩ := filed.lookup known'
      exact ⟨_, number', bound.ne', known.symm, right⟩
    · rw [beq_eq_false_iff_ne.2 here] at known
      by_cases here' : other = first
      · subst here'
        rw [beq_self_eq_true, Option.some.injEq] at known'
        obtain ⟨number, bound, right, _⟩ := filed.lookup known
        exact ⟨number, _, bound.ne, right, known'.symm⟩
      · rw [beq_eq_false_iff_ne.2 here'] at known'
        exact inductionHypothesis known known'

end Filed

/-- Globals of different numbers have different names. -/
theorem stringGlobal_name_injective {number number' : Nat} {text other : String}
    (same : (stringGlobal number text).name = (stringGlobal number' other).name) :
    number = number' :=
  @numbered_injective ".str" ".str" number number' same

theorem stringGlobal_spells (number : Nat) (text : String) :
    (stringGlobal number text).Spells text text.utf8ByteSize.toUInt64 := by
  refine ⟨rfl, rfl, fun fits => ?_⟩
  rw [length_toUTF8] at fits ⊢
  exact Nat.mod_eq_of_lt fits

/-- What was there stays: globals keep their names, texts their addresses, and if every text had a
global of its own, every text has one. -/
structure Context.Advances (before after : Context) : Prop where
  retains : before.builder.target.Retains after.builder.target
  known : ∀ text address, before.strings.lookup text = some address →
    after.strings.lookup text = some address
  filed : Filed before.builder.target before.strings → Filed after.builder.target after.strings

namespace Context.Advances

variable {before after : Context}

instance : IsPreorder Context Advances where
  refl _ := ⟨fun _ _ => id, fun _ _ => id, id⟩
  trans _ _ _ earlier later :=
    ⟨earlier.retains.trans later.retains,
      fun text address known => later.known text address (earlier.known text address known),
      fun filed => later.filed (earlier.filed filed)⟩

/-- The table of texts is the same. -/
theorem of_strings (strings : after.strings = before.strings)
    (retains : before.builder.target.Retains after.builder.target) : before.Advances after :=
  ⟨retains, fun _ _ known => by rwa [strings], fun filed => strings ▸ filed.mono retains⟩

end Context.Advances

/-- A text is known already, or gets a global and an entry, or the name of its global is taken. -/
theorem internString_cases (text : String) (context : Context) :
    (∃ address, context.strings.lookup text = some address ∧
      internString text context = .ok address context) ∨
    context.strings.lookup text = none ∧
      let global := stringGlobal context.strings.length text
      ((∃ target, context.builder.target.declareGlobal global = .ok global.address target ∧
        internString text context = .ok global.address { context with
          builder := { context.builder with target }
          strings := (text, global.address) :: context.strings }) ∨
      ∃ taken, context.builder.target.global? global.name = some taken ∧ taken ≠ global ∧
        internString text context = .error (.ir (.globalConflict global.name)) context) := by
  have asked : (get : LowerM Context) context = .ok context context := rfl
  unfold internString
  rw [run_bind asked]
  cases known : context.strings.lookup text with
  | some address => exact .inl ⟨address, rfl, rfl⟩
  | none =>
    refine .inr ⟨rfl, ?_⟩
    intro global
    let declaring : LowerM Value := build (Build.declare fun target => target.declareGlobal global)
    cases declared : context.builder.target.declareGlobal global with
    | ok address target =>
      obtain ⟨rfl, _⟩ := Module.declareGlobal_ok declared
      have ended : declaring context = .ok global.address
          { context with builder := { context.builder with target } } := by
        unfold declaring build Build.declare
        simp only [declared]
      exact .inl ⟨target, rfl, run_bind ended⟩
    | error cause target =>
      obtain ⟨rfl, taken, found, differs, rfl⟩ := Module.declareGlobal_error declared
      have ended : declaring context = .error (.ir (.globalConflict global.name)) context := by
        unfold declaring build Build.declare
        simp only [declared]
      exact .inr ⟨taken, found, differs, run_bind_error ended⟩

theorem internString_of_known {text : String} {context : Context} {address : Value}
    (known : context.strings.lookup text = some address) :
    internString text context = .ok address context := by
  rcases internString_cases text context with ⟨_, known', interned⟩ | ⟨fresh, _⟩
  · cases known.symm.trans known'
    exact interned
  · cases known.symm.trans fresh

/-- A text that was interned is known, and one that was refused left everything as it was. -/
theorem internString_ends (text : String) (context : Context) :
    Ends (internString text) context
      (fun address after => context.Advances after ∧ after.strings.lookup text = some address)
      fun cause after =>
        let global := stringGlobal context.strings.length text
        after = context ∧ cause = .ir (.globalConflict global.name) ∧
          ∃ taken, context.builder.target.global? global.name = some taken ∧ taken ≠ global := by
  rcases internString_cases text context with ⟨address, known, interned⟩ |
    ⟨fresh, ⟨target, declared, interned⟩ | ⟨taken, found, differs, interned⟩⟩
  · rw [Ends, interned]
    exact ⟨refl_of Context.Advances _, known⟩
  · obtain ⟨found, retains⟩ := Module.global?_declareGlobal declared
    rw [Ends, interned]
    refine ⟨⟨retains, fun other address known => ?_,
      fun filed => .cons (filed.mono retains) fresh found⟩, List.lookup_cons_self⟩
    rw [List.lookup_cons, beq_eq_false_iff_ne.2]
    · exact known
    · rintro rfl
      cases fresh.symm.trans known
  · rw [Ends, interned]
    exact ⟨rfl, rfl, taken, found, differs⟩

/-- A literal is the slice over the global of its text. -/
theorem stringLiteral_of_interned {number : Nat} {text : String} {context after : Context}
    (interned : internString text context = .ok (stringGlobal number text).address after) :
    stringLiteral text context = .ok (.const (.slice (stringGlobal number text).name
      text.utf8ByteSize.toUInt64) (.slice .u8)) after := by
  unfold stringLiteral
  rw [run_bind interned]
  rfl

/-! ### Requests -/

/-- Puts a declaration to the module under construction. -/
def Build.put (declaration : Declaration) : BuildM Handle :=
  declare fun target => target.declare declaration

/-- What a run can be asked to do to its tables. -/
inductive TableRequest where
  | text (text : String)
  | literal (text : String)
  | declare (declaration : Declaration)
  | type (ty : TypeId)
  | item (item : Item)
  | signature (decl : FunctionDecl)
  | symbol (link : Name) (ty : TypeId) (span : Span)

/-- Does what is asked for. -/
def TableRequest.serve (source : Source) : TableRequest → LowerM Unit
  | .text content => discard (internString content)
  | .literal content => discard (stringLiteral content)
  | .declare declaration => discard (build (Build.put declaration))
  | .type ty => discard (lowerType source ty)
  | .item entry => declareItem source entry
  | .signature decl => discard (declareFn source decl)
  | .symbol link ty span => discard (functionForSymbol source link ty span)

namespace Context

/-- The state after an action, which may have failed. -/
def after {α : Type} (context : Context) (action : LowerM α) : Context :=
  match action context with
  | .ok _ after | .error _ after => after

/-- The state after some requests, any of which may fail. -/
def serve (source : Source) (context : Context) (requests : List TableRequest) : Context :=
  requests.foldl (fun context request => context.after (request.serve source)) context

end Context

section Requests

variable {source : Source}

/-- A step of the builder that declares something. -/
theorem onward_declare {α : Type} {declaration : Module → EStateM.Result Ir.Error Module α}
    (spares : Module.Spares declaration) :
    Onward Context.Advances (build (Build.declare declaration)) := by
  rintro ⟨builder, env, memo, strings, scope⟩
  unfold Ends build Build.declare
  dsimp only
  rcases spares builder.target with ⟨answer, target, accepted, retains⟩ | ⟨cause, refused⟩
  · rw [accepted]
    exact .of_strings rfl retains
  · rw [refused]
    exact refl_of Context.Advances _

theorem onward_lowerType (source : Source) (ty : TypeId) :
    Onward Context.Advances (lowerType source ty) := by
  intro context
  have only := onward_mapTypeWithin source source.typeDepth ty
    ⟨context.memo, context.builder.target⟩
  unfold Ends at only
  unfold Ends lowerType mapping mapType
  cases ended : mapTypeWithin source source.typeDepth ty ⟨context.memo, context.builder.target⟩ with
  | ok result after =>
    rw [ended] at only
    exact .of_strings rfl (.of_globals only.globals)
  | error cause after =>
    rw [ended] at only
    exact .of_strings rfl (.of_globals only.globals)

theorem onward_internString (text : String) : Onward Context.Advances (internString text) := by
  intro context
  refine (internString_ends text context).mono (fun _ _ ended => ended.1) ?_
  rintro _ _ ⟨rfl, _⟩
  exact refl_of Context.Advances _

theorem onward_stringLiteral (text : String) : Onward Context.Advances (stringLiteral text) := by
  refine (onward_internString text).bind fun address => ?_
  split
  · exact .pure _
  · exact .throw _

theorem onward_declareItem (item : Item) :
    Onward Context.Advances (declareItem source item) := by
  cases item with
  | struct decl => exact (onward_lowerType source decl.ty).discard
  | const decl =>
    exact ((onward_lowerType source decl.ty).bind fun ty =>
      onward_declare (Module.spares_declareGlobal _)).discard
  | function decl => exact .pure ()
  | methods decls => exact .pure ()

theorem onward_declareFn (decl : FunctionDecl) :
    Onward Context.Advances (declareFn source decl) := by
  refine (Onward.mapM (fun param => (onward_lowerType source _).bind fun ty => .pure _) _).bind
    fun params => (onward_lowerType source decl.ret).bind fun ret => ?_
  exact onward_declare (Module.spares_declareFunction _ _ _)

theorem onward_functionForSymbol (link : Name) (ty : TypeId) (span : Span) :
    Onward Context.Advances (functionForSymbol source link ty span) := by
  unfold functionForSymbol
  refine Onward.get.bind fun context => ?_
  split
  · exact .pure _
  · split
    · refine (Onward.mapM (onward_lowerType source) _).bind fun params =>
        (onward_lowerType source _).bind fun ret => ?_
      exact onward_declare (Module.spares_declareFunction _ _ _)
    · exact .throw _

theorem onward_serve (request : TableRequest) :
    Onward Context.Advances (request.serve source) := by
  cases request with
  | text text => exact (onward_internString text).discard
  | literal text => exact (onward_stringLiteral text).discard
  | declare declaration =>
    exact (onward_declare (Module.spares_declare declaration)).discard
  | type ty => exact (onward_lowerType source ty).discard
  | item item => exact onward_declareItem item
  | signature decl => exact (onward_declareFn decl).discard
  | symbol link ty span => exact (onward_functionForSymbol link ty span).discard

/-- What is said of both ends of an action is said of the state after it. -/
theorem Onward.after {α : Type} {relation : Context → Context → Prop} {action : LowerM α}
    (onward : Onward relation action) (context : Context) :
    relation context (context.after action) := by
  have ends := onward context
  unfold Ends at ends
  unfold Context.after
  cases ended : action context with
  | ok result after => rwa [ended] at ends
  | error cause after => rwa [ended] at ends

/-- Requests of any kind and number keep what is there. -/
theorem Context.advances_serve (source : Source) (context : Context)
    (requests : List TableRequest) :
    context.Advances (context.serve source requests) := by
  induction requests generalizing context with
  | nil => exact refl_of Advances context
  | cons request rest inductionHypothesis =>
    exact trans_of Advances ((onward_serve request).after context) (inductionHypothesis _)

end Requests

/-- The laws of string literals, however literals and declarations of any kind follow each other. A
text that is interned has a global that spells it, for good: it is found at any later time, it is
what the text is interned as again without any change, and no other text is interned as it. A text
that is refused changes nothing, and the name of its global is taken by another one. A literal is
the slice over all the bytes of the global of its text. -/
theorem strings_interned (source : Source) (options : Options) (earlier : List TableRequest)
    (text : String) (later : List TableRequest) :
    let before := (Context.start options).serve source earlier
    Ends (internString text) before
      (fun address here =>
        let last := here.serve source later
        ∃ global len, address = global.address ∧ global.Spells text len ∧
          last.builder.target.global? global.name = some global ∧
          internString text last = .ok address last ∧
          stringLiteral text last = .ok (.const (.slice global.name len) (.slice .u8)) last ∧
          ∀ other, other ≠ text → Ends (internString other) last
            (fun address' _ => ∃ global' : Global, address' = global'.address ∧
              global'.name ≠ global.name) fun _ _ => True)
      (fun cause after =>
        let global := stringGlobal before.strings.length text
        after = before ∧ cause = .ir (.globalConflict global.name) ∧
          ∃ taken, before.builder.target.global? global.name = some taken ∧ taken ≠ global) ∧
    Ends (stringLiteral text) before
      (fun value after => ∃ global len, internString text before = .ok global.address after ∧
        after.builder.target.global? global.name = some global ∧ global.Spells text len ∧
        value = .const (.slice global.name len) (.slice .u8))
      fun cause after => after = before ∧ internString text before = .error cause before := by
  intro before
  have filed : Filed before.builder.target before.strings :=
    (Context.advances_serve source (.start options) earlier).filed .nil
  have ends := internString_ends text before
  constructor
  · refine ends.mono (fun address here interned => ?_) fun cause after refused => refused
    obtain ⟨advances, known⟩ := interned
    intro last
    have advances' : here.Advances last := Context.advances_serve source here later
    have known' := advances'.known text address known
    have filed' := advances'.filed (advances.filed filed)
    obtain ⟨number, _, rfl, found⟩ := filed'.lookup known'
    have again := internString_of_known known'
    refine ⟨stringGlobal number text, _, rfl, stringGlobal_spells number text, found, again,
      stringLiteral_of_interned again, fun other differs => ?_⟩
    refine (internString_ends other last).mono (fun address' after ⟨advances'', other'⟩ => ?_)
      fun _ _ _ => trivial
    obtain ⟨number', number'', apart, same, rfl⟩ := (advances''.filed filed').apart differs.symm
      (advances''.known _ _ known') other'
    refine ⟨_, rfl, fun named => apart ?_⟩
    have here' : number = number' := stringGlobal_name_injective (Value.global.inj same).1
    rw [← here']
    exact (stringGlobal_name_injective named).symm
  · cases ended : internString text before with
    | ok address after =>
      obtain ⟨advances, known⟩ := ends.of_ok ended
      obtain ⟨number, _, rfl, found⟩ := (advances.filed filed).lookup known
      rw [Ends, stringLiteral_of_interned ended]
      exact ⟨_, _, rfl, found, stringGlobal_spells number text, rfl⟩
    | error cause after =>
      obtain ⟨rfl, _⟩ := ends.of_error ended
      have failed : stringLiteral text before = .error cause before := by
        unfold stringLiteral
        exact run_bind_error ended
      rw [Ends, failed]
      exact ⟨rfl, rfl⟩

/-- A global that takes the name of the first text keeps every text out. -/
example : ((Context.start .standard).serve default
    [.declare (.global ⟨".str.0", .u8, .bytes []⟩), .text "a", .literal "b"]).strings = [] := by
  cbv

end TreeLowering.Lowering
