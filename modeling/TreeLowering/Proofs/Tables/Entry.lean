/-
This file makes the entries in the books of a run. A type that is mapped enters its structs, a
signature enters a function unless one of its name is there, and a constant or a string literal
enters a global. All of a program's structs, constants and signatures are entered before its first
body is lowered.
-/

import TreeLowering.Proofs.Tables.Ledger

namespace TreeLowering.Lowering

open TreeLowering.Ir TreeLowering.Tree

/-- A single name is left when it is not among those that are taken away. -/
theorem removeAll_singleton (names : List String) (name : String) :
    [name].removeAll names = if name ∈ names then [] else [name] := by
  by_cases member : name ∈ names <;> simp [List.removeAll, member]

section Entries

variable {source : Source} {options : Options} {done : List Item} {decls : List FunctionDecl}
  {others : List String} {work : Work}

/-! ### Types -/

/-- A type that is mapped enters its structs with their fields. -/
theorem Ledger.mapType (formed : source.WellFormed)
    (ledger : Ledger source options done decls others work) (ty : TypeId) :
    Returns (mapType source ty) ⟨work.memo, work.builder.target⟩ fun found after =>
      Ledger source options done decls others (work.mapped after) ∧
        work.builder.target.Expands after.target ∧ found = source.translation ty ∧
        found.Within after.target.Knows := by
  intro found after returned
  obtain ⟨complete, right, within, only, knows⟩ :=
    (ledger.types.mapType formed.mappable ty).of_ok returned
  have filled := returns_mapType_filled source ledger.filled ledger.types.idle ty found after returned
  have functions : after.target.functions = work.builder.target.functions := only.functions
  have globals : after.target.globals = work.builder.target.globals := only.globals
  have signatures : after.target.signatures = work.builder.target.signatures := by
    rw [Module.signatures, functions, Module.signatures]
  have expands : work.builder.target.Expands after.target :=
    ⟨knows, fun _ => signatures.symm ▸ id, fun _ => globals.symm ▸ id⟩
  refine ⟨⟨ledger.chosen, complete, filled, fun decl member definition struct =>
    knows _ (ledger.structs decl member definition struct), ledger.roster.of_signatures signatures
    knows, ledger.stock.of_globals globals knows, ?_⟩, expands, right, within⟩
  exact (ledger.code.declares (.of_functions functions)).mono
    (fun _ _ closed => closed.expand expands) fun _ closed => closed.expand expands

/-! ### Functions -/

/-- Whether a name has to be entered: it is new, or it was there already. -/
inductive Entered (present : List String) (name : String) : List String → Prop
  | found (member : name ∈ present) : Entered present name []
  | added (missing : name ∉ present) : Entered present name [name]

/-- A signature is entered unless a function of its name is there, which then has the same type. -/
theorem Ledger.declareFunction (ledger : Ledger source options done decls others work)
    {name : String} {params : List Ir.Param} {ret : Ty}
    (within : (Ty.func (params.map Param.ty) ret).Within work.builder.target.Knows) :
    Returns (Build.declare fun target => target.declareFunction name params ret) work.builder
      fun _ after => work.builder.target.Expands after.target ∧
        (∃ function ∈ after.target.signatures,
          function.Bears name (.func (params.map Param.ty) ret)) ∧
        ∃ more, Entered (work.builder.target.signatures.map Function.name) name more ∧
          Ledger source options done decls (others ++ more) { work with builder := after } := by
  refine Build.returns_declare fun func target declared => ?_
  rcases Module.declareFunction_ok declared with ⟨missing, rfl, rfl⟩ |
    ⟨rfl, _, existing, found, named, signed⟩
  · have signatures := @Module.signatures_addFunction _ (.declared name params ret) missing
    have expands : work.builder.target.Expands
        (work.builder.target.addFunction (.declared name params ret) missing) := by
      refine ⟨fun _ known => known.of_types rfl, fun function member => ?_, fun _ => id⟩
      rw [signatures]
      exact List.mem_append_left _ member
    refine ⟨expands, ⟨.declared name params ret, ?_, rfl, rfl⟩, [name], .added fun member => ?_, ?_⟩
    · refine signatures.symm ▸ ?_
      exact List.mem_append_right _ List.mem_cons_self
    · obtain ⟨function, listed, rfl⟩ := List.mem_map.1 member
      obtain ⟨func, known⟩ := Module.functionId?_of_mem listed
      cases missing.symm.trans known
    · obtain ⟨names, signed, declared'⟩ := ledger.roster
      refine ⟨ledger.chosen, ledger.types.of_types rfl, ledger.filled.of_types rfl,
        fun decl member definition struct => expands.knows _ (ledger.structs decl member definition
          struct), ⟨?_, ?_, ?_⟩, ledger.stock.of_globals rfl expands.knows, ?_⟩
      · show (work.builder.target.addFunction _ missing).signatures.map _ = _
        rw [signatures, List.map_append, names, List.append_assoc]
        rfl
      · intro function member
        change function ∈ (work.builder.target.addFunction _ missing).signatures at member
        rw [signatures] at member
        rcases List.mem_append.1 member with old | new
        · exact (signed function old).mono expands.knows
        · cases List.mem_singleton.1 new
          exact within.mono expands.knows
      · intro decl listed
        obtain ⟨function, member, bears⟩ := declared' decl listed
        exact ⟨function, expands.signatures function member, bears⟩
      · exact (ledger.code.declares (Module.declareFunction_spec declared).1).mono
          (fun _ _ closed => closed.expand expands) fun _ closed => closed.expand expands
  · have member : existing.bare ∈ work.builder.target.signatures :=
      Module.mem_signatures (Array.mem_of_getElem? found)
    have bears : existing.bare.Bears name (.func (params.map Param.ty) ret) := ⟨named, signed⟩
    refine ⟨.refl _, ⟨existing.bare, member, bears⟩, [],
      .found (bears.1 ▸ List.mem_map_of_mem member), ?_⟩
    rw [List.append_nil]
    exact ledger

/-- What was entered for a signature of the program counts as one of the program's functions. -/
theorem Ledger.signed {more : List String} {decl : FunctionDecl}
    (ledger : Ledger source options done decls more work) {present : List String}
    (before : present = (decls.map fun decl => source.names.text decl.link).eraseDups)
    (entered : Entered present (source.names.text decl.link) more)
    (bears : ∃ function ∈ work.builder.target.signatures,
      function.Bears (source.names.text decl.link) (source.signature decl).signature) :
    Ledger source options done (decls ++ [decl]) [] work := by
  obtain ⟨names, signed, declared⟩ := ledger.roster
  refine ⟨ledger.chosen, ledger.types, ledger.filled, ledger.structs,
    ⟨?_, signed, fun other listed => ?_⟩, ledger.stock, ledger.code⟩
  · rw [names, List.map_append, List.eraseDups_append, List.append_nil]
    congr 1
    subst before
    cases entered with
    | found member =>
      rw [List.map_singleton, removeAll_singleton, if_pos (List.mem_eraseDups.1 member)]
      rfl
    | added missing =>
      rw [List.map_singleton, removeAll_singleton, if_neg (mt List.mem_eraseDups.2 missing)]
      rfl
  · rcases List.mem_append.1 listed with old | new
    · exact declared other old
    · cases List.mem_singleton.1 new
      exact bears

/-! ### Globals -/

/-- What declaring a global does to a module. -/
structure EntersGlobal (global : Global) (before after : Module) : Prop where
  types : after.types = before.types
  functions : after.functions = before.functions
  kept : ∀ other ∈ before.globals, other ∈ after.globals
  here : global ∈ after.globals
  only : ∀ other ∈ after.globals, other ∈ before.globals ∨ other = global

theorem enters_declareGlobal {target second : Module} {global : Global} {address : Value}
    (declared : target.declareGlobal global = .ok address second) :
    address = global.address ∧ EntersGlobal global target second := by
  obtain ⟨rfl, ⟨_, rfl⟩ | ⟨found, rfl⟩⟩ := Module.declareGlobal_ok declared
  · exact ⟨rfl, rfl, rfl, fun other member => Array.mem_push.2 (.inl member), Array.mem_push_self,
      fun other member => Array.mem_push.1 member⟩
  · exact ⟨rfl, rfl, rfl, fun _ => id, (Module.global?_eq_some_iff.1 found).1, fun _ => .inl⟩

namespace EntersGlobal

variable {global : Global} {before after : Module} (enters : EntersGlobal global before after)

include enters

theorem knows (name : String) (known : before.Knows name) : after.Knows name :=
  known.of_types enters.types

theorem signatures : after.signatures = before.signatures := by
  rw [Module.signatures, enters.functions, Module.signatures]

theorem expands : before.Expands after :=
  ⟨enters.knows, fun _ => enters.signatures.symm ▸ id, enters.kept⟩

end EntersGlobal

/-- A global that is entered changes nothing but the globals. -/
theorem Ledger.entered (ledger : Ledger source options done decls others work) {global : Global}
    {target : Module} {done' : List Item} {strings : List (String × Value)}
    (enters : EntersGlobal global work.builder.target target)
    (structs : ∀ decl, .struct decl ∈ done' → .struct decl ∈ done)
    (stock : Stock source done' strings target) :
    Ledger source options done' decls others
      ⟨{ work.builder with target }, work.memo, strings⟩ := by
  refine ⟨ledger.chosen, ledger.types.of_types enters.types, ledger.filled.of_types enters.types,
    fun decl member definition struct =>
      enters.knows _ (ledger.structs decl (structs decl member) definition struct),
    ledger.roster.of_signatures enters.signatures enters.knows, stock, ?_⟩
  exact (ledger.code.declares (.of_functions enters.functions)).mono
    (fun _ _ closed => closed.expand enters.expands) fun _ closed => closed.expand enters.expands

/-- The text of a string literal is entered under its number. -/
theorem Ledger.declareText (ledger : Ledger source options done decls others work) (number : Nat)
    (text : String) :
    Returns (Build.declare fun target => target.declareGlobal (stringGlobal number text))
      work.builder fun address after => work.builder.target.Expands after.target ∧
        Ledger source options done decls others
          { work with builder := after, strings := (text, address) :: work.strings } := by
  refine Build.returns_declare fun address target declared => ?_
  obtain ⟨rfl, enters⟩ := enters_declareGlobal declared
  refine ⟨enters.expands, ledger.entered enters (fun _ => id) ?_⟩
  obtain ⟨consts, origin, held, texts⟩ := ledger.stock
  refine ⟨fun decl member => enters.kept _ (consts decl member), fun global member => ?_,
    fun global member => ?_, fun other address found => ?_⟩
  · rcases enters.only global member with old | rfl
    · exact origin global old
    · exact .inr ⟨number, text, rfl⟩
  · rcases enters.only global member with old | rfl
    · exact (held global old).mono enters.knows
    · exact .array (.prim .u8)
  · rw [List.lookup_cons] at found
    split at found
    · next same =>
      cases found
      rw [beq_iff_eq.1 same]
      exact ⟨number, enters.here, rfl⟩
    · obtain ⟨number', member, same⟩ := texts other address found
      exact ⟨number', enters.kept _ member, same⟩

end Entries

/-! ### Programs -/

section Programs

variable {source : Source} {options : Options} {done : List Item} {decls : List FunctionDecl}
  {context : Context} (formed : source.WellFormed)

include formed

theorem Ledger.lowerType {others : List String}
    (ledger : Ledger source options done decls others context.work) (ty : TypeId) :
    Returns (lowerType source ty) context fun found after =>
      Ledger source options done decls others after.work ∧
        context.builder.target.Expands after.builder.target ∧ found = source.translation ty ∧
        found.Within after.builder.target.Knows :=
  returns_mapping ((ledger.mapType formed ty).mono fun _ _ => id)

/-- A constant is entered with its type and its folded value. -/
theorem Ledger.declareConst (ledger : Ledger source options done decls [] context.work)
    (decl : ConstDecl) :
    Returns (declareConst source decl) context fun _ after =>
      Ledger source options (done ++ [.const decl]) decls [] after.work := by
  unfold Lowering.declareConst
  rw [returns_bind]
  refine (ledger.lowerType formed decl.ty).mono ?_
  rintro _ first ⟨ledger', _, rfl, within⟩
  refine returns_build (Build.returns_declare fun address target declared => ?_)
  obtain ⟨rfl, enters⟩ :=
    @enters_declareGlobal first.builder.target target (source.global decl) _ declared
  have structs : ∀ other, Item.struct other ∈ done ++ [.const decl] → Item.struct other ∈ done := by
    intro other member
    rcases List.mem_append.1 member with old | new
    · exact old
    · cases List.mem_singleton.1 new
  refine ledger'.entered enters structs ?_
  obtain ⟨consts, origin, held, texts⟩ := ledger'.stock
  refine ⟨fun other member => ?_, fun global member => ?_,
    fun global member => ?_, fun text address found => ?_⟩
  · rcases List.mem_append.1 member with old | new
    · exact enters.kept _ (consts other old)
    · cases List.mem_singleton.1 new
      exact enters.here
  · rcases enters.only global member with old | rfl
    · rcases origin global old with ⟨other, listed, same⟩ | text
      · exact .inl ⟨other, List.mem_append_left _ listed, same⟩
      · exact .inr text
    · exact .inl ⟨decl, List.mem_append_right _ List.mem_cons_self, rfl⟩
  · rcases enters.only global member with old | rfl
    · exact (held global old).mono enters.knows
    · exact within.mono enters.knows
  · obtain ⟨number, member, same⟩ := texts text address found
    exact ⟨number, enters.kept _ member, same⟩

/-- An item other than a constant enters its structs only. -/
theorem Ledger.declareItem (ledger : Ledger source options done decls [] context.work)
    (item : Item) :
    Returns (declareItem source item) context fun _ after =>
      Ledger source options (done ++ [item]) decls [] after.work := by
  -- the books say the same when an item is done that enters nothing
  have others : ∀ {work : Work}, Ledger source options done decls [] work →
      (∀ decl, item ≠ .const decl) → (∀ decl, item = .struct decl → ∀ definition,
        source.program.types.kind decl.ty = .struct definition →
          work.builder.target.Knows (source.names.text definition.name)) →
      Ledger source options (done ++ [item]) decls [] work := by
    intro work ledger plain known
    obtain ⟨consts, origin, held, texts⟩ := ledger.stock
    refine ⟨ledger.chosen, ledger.types, ledger.filled, fun decl member => ?_, ledger.roster,
      ⟨fun decl member => ?_, fun global member => ?_, held, texts⟩, ledger.code⟩
    · rcases List.mem_append.1 member with old | new
      · exact ledger.structs decl old
      · exact known decl (List.mem_singleton.1 new).symm
    · rcases List.mem_append.1 member with old | new
      · exact consts decl old
      · exact absurd (List.mem_singleton.1 new).symm (plain decl)
    · rcases origin global member with ⟨decl, listed, same⟩ | text
      · exact .inl ⟨decl, List.mem_append_left _ listed, same⟩
      · exact .inr text
  cases item with
  | const decl => exact returns_discard (ledger.declareConst formed decl)
  | struct decl =>
    refine returns_discard ((ledger.lowerType formed decl.ty).mono ?_)
    rintro _ after ⟨ledger', _, rfl, within⟩
    refine others ledger' nofun fun other same definition struct => ?_
    cases same
    rw [formed.mappable.translation_struct struct] at within
    cases within with
    | struct known => exact known
  | function decl => exact returns_pure.2 (others ledger nofun nofun)
  | methods group => exact returns_pure.2 (others ledger nofun nofun)

theorem Ledger.declareItems (ledger : Ledger source options done decls [] context.work)
    (items : List Item) :
    Returns (items.forM (Lowering.declareItem source)) context fun _ after =>
      Ledger source options (done ++ items) decls [] after.work := by
  induction items generalizing done context with
  | nil =>
    rw [List.append_nil]
    exact returns_pure.2 ledger
  | cons item rest inductionHypothesis =>
    show Returns (Lowering.declareItem source item >>= fun _ =>
      rest.forM (Lowering.declareItem source)) context _
    rw [returns_bind]
    refine (ledger.declareItem formed item).mono fun _ first ledger' => ?_
    rw [← List.singleton_append, ← List.append_assoc]
    exact inductionHypothesis ledger'

theorem Ledger.lowerParams (ledger : Ledger source options done decls [] context.work)
    (params : List Tree.Param) :
    Returns (params.mapM fun param => do
        return Ir.Param.mk (source.names.text param.name) (← Lowering.lowerType source param.ty)) context
      fun mapped after => Ledger source options done decls [] after.work ∧
        context.builder.target.Expands after.builder.target ∧
        mapped = params.map (fun param =>
          ⟨source.names.text param.name, source.translation param.ty⟩) ∧
        ∀ param ∈ mapped, param.ty.Within after.builder.target.Knows := by
  induction params generalizing context with
  | nil => exact returns_pure.2 ⟨ledger, .refl _, rfl, nofun⟩
  | cons param rest inductionHypothesis =>
    rw [List.mapM_cons, returns_bind, returns_bind]
    refine (ledger.lowerType formed param.ty).mono ?_
    rintro _ middle ⟨ledger', expands, rfl, within⟩
    rw [returns_pure, returns_bind]
    refine (inductionHypothesis ledger').mono ?_
    rintro mapped after ⟨ledger'', expands', rfl, withins⟩
    refine returns_pure.2 ⟨ledger'', expands.trans expands', rfl, fun param member => ?_⟩
    rcases List.mem_cons.1 member with rfl | member
    · exact within.mono expands'.knows
    · exact withins param member

theorem Ledger.declareFn (ledger : Ledger source options done decls [] context.work)
    (decl : FunctionDecl) :
    Returns (declareFn source decl) context fun _ after =>
      Ledger source options done (decls ++ [decl]) [] after.work := by
  unfold Lowering.declareFn
  rw [returns_bind]
  refine (ledger.lowerParams formed decl.params).mono ?_
  rintro _ middle ⟨ledger', _, rfl, withins⟩
  rw [returns_bind]
  refine (ledger'.lowerType formed decl.ret).mono ?_
  rintro _ after ⟨mapped, expands, rfl, within⟩
  have signature : (source.signature decl).signature.Within after.builder.target.Knows := by
    refine .func (fun ty member => ?_) within
    obtain ⟨param, given, rfl⟩ := List.mem_map.1 member
    exact (withins param given).mono expands.knows
  refine returns_build ((mapped.declareFunction signature).mono ?_)
  rintro _ builder ⟨_, bears, more, entered, ledger''⟩
  exact Ledger.signed ledger'' (mapped.roster.names.trans (List.append_nil _)) entered bears

/-- Before the first body is lowered, everything that the program declares is entered. -/
theorem Ledger.declareProgram (options : Options) :
    Returns (declareProgram source) (Context.start options) fun _ after =>
      Ledger source options source.program.items source.program.functions [] after.work := by
  have signatures : ∀ (rest decls : List FunctionDecl) (context : Context),
      Ledger source options source.program.items decls [] context.work →
        Returns (rest.mapM fun decl => do return (decl, ← Lowering.declareFn source decl)) context
          fun _ after => Ledger source options source.program.items (decls ++ rest) [] after.work := by
    intro rest
    induction rest with
    | nil => exact fun decls context ledger => returns_pure.2 ((List.append_nil decls).symm ▸ ledger)
    | cons decl rest inductionHypothesis =>
      intro decls context ledger
      rw [List.mapM_cons, returns_bind, returns_bind]
      refine (ledger.declareFn formed decl).mono fun func first ledger' => ?_
      rw [returns_pure, returns_bind]
      refine (inductionHypothesis _ first ledger').mono fun _ after ledger'' => ?_
      rw [returns_pure, ← List.singleton_append, ← List.append_assoc]
      exact ledger''
  unfold Lowering.declareProgram
  rw [returns_bind]
  exact ((Ledger.start source options).declareItems formed source.program.items).mono
    fun _ middle ledger => signatures source.program.functions [] middle ledger

end Programs

end TreeLowering.Lowering
