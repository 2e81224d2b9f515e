/-
This file keeps the books of a run: which functions and globals are declared by now and why, and
that everything the code refers to is among them. Code that refers to what is there leaves the books
alone. A function is entered once, under a name that no other function has; a global is entered by a
constant of the program or by a string literal.
-/

import TreeLowering.Proofs.Tables.Reference

namespace TreeLowering.Ir

/-! ### Entries -/

/-- The function has this name and this type. -/
def Function.Bears (function : Function) (name : String) (signature : Ty) : Prop :=
  function.name = name ∧ function.signature = signature

end TreeLowering.Ir

namespace TreeLowering.Lowering

open TreeLowering.Ir TreeLowering.Tree

/-! ### Books -/

/-- The functions of a module: first one for each link name of the program, in source order, then
those called `others`. No two have one name, and their types are known. -/
structure Roster (source : Source) (decls : List FunctionDecl) (others : List String)
    (target : Module) : Prop where
  names : target.signatures.map Function.name =
    (decls.map fun decl => source.names.text decl.link).eraseDups ++ others
  signed : ∀ function ∈ target.signatures, function.signature.Within target.Knows
  declared : ∀ decl ∈ decls, ∃ function ∈ target.signatures,
    function.Bears (source.names.text decl.link) (source.signature decl).signature

/-- The globals of a module: the constants of the program, and the texts of string literals. Their
types are known. -/
structure Stock (source : Source) (done : List Item) (strings : List (String × Value))
    (target : Module) : Prop where
  consts : ∀ decl, .const decl ∈ done → source.global decl ∈ target.globals
  origin : ∀ global ∈ target.globals, (∃ decl, .const decl ∈ done ∧ global = source.global decl) ∨
    ∃ number text, global = stringGlobal number text
  held : ∀ global ∈ target.globals, global.ty.Within target.Knows
  texts : ∀ text address, strings.lookup text = some address → ∃ number,
    stringGlobal number text ∈ target.globals ∧ address = (stringGlobal number text).address

/-- The books of a run that has declared the items in `done`, the signatures in `decls`, and the
functions called `others`. -/
structure Ledger (source : Source) (options : Options) (done : List Item)
    (decls : List FunctionDecl) (others : List String) (work : Work) : Prop where
  chosen : work.builder.options = options
  types : TypeState.Complete source ⟨work.memo, work.builder.target⟩
  filled : work.builder.target.Filled
  structs : ∀ decl, .struct decl ∈ done → ∀ definition,
    source.program.types.kind decl.ty = .struct definition →
      work.builder.target.Knows (source.names.text definition.name)
  roster : Roster source decls others work.builder.target
  stock : Stock source done work.strings work.builder.target
  code : work.builder.target.Every (fun _ => Instruction.Closed work.builder.target)
    (Terminator.Closed work.builder.target)

section Books

variable {source : Source} {options : Options} {done : List Item} {decls : List FunctionDecl}
  {others : List String} {strings : List (String × Value)} {target second : Module} {work : Work}

/-- Nothing is declared at the start. -/
theorem Ledger.start (source : Source) (options : Options) :
    Ledger source options [] [] [] (Context.start options).work where
  chosen := rfl
  types := .start source _
  filled := nofun
  structs := nofun
  roster := ⟨rfl, nofun, nofun⟩
  stock := ⟨nofun, nofun, nofun, nofun⟩
  code := .empty _

/-- Functions with the same signatures, in a module that knows more. -/
theorem Roster.of_signatures (roster : Roster source decls others target)
    (same : second.signatures = target.signatures)
    (knows : ∀ name, target.Knows name → second.Knows name) :
    Roster source decls others second := by
  obtain ⟨names, signed, declared⟩ := roster
  rw [← same] at names declared
  refine ⟨names, fun function member => ?_, declared⟩
  rw [same] at member
  exact (signed function member).mono knows

/-- The same globals, in a module that knows more. -/
theorem Stock.of_globals (stock : Stock source done strings target)
    (same : second.globals = target.globals)
    (knows : ∀ name, target.Knows name → second.Knows name) :
    Stock source done strings second := by
  obtain ⟨consts, origin, held, texts⟩ := stock
  rw [← same] at consts origin held texts
  exact ⟨consts, origin, fun global member => (held global member).mono knows, texts⟩

/-! ### Code -/

/-- What is declared stays as it is. -/
structure Builder.Settled (before after : Builder) : Prop where
  signatures : after.target.signatures = before.target.signatures
  options : after.options = before.options

/-- Code that refers to what is there leaves the books alone. -/
theorem Ledger.wrote (ledger : Ledger source options done decls others work) {after : Builder}
    (adds : work.builder.Adds (fun _ => Instruction.Closed work.builder.target)
      (Terminator.Closed work.builder.target) after)
    (settled : work.builder.Settled after) :
    Ledger source options done decls others { work with builder := after } ∧
      work.builder.target.Expands after.target := by
  have knows : ∀ name, work.builder.target.Knows name → after.target.Knows name :=
    fun _ known => known.of_types adds.types
  have expands : work.builder.target.Expands after.target :=
    ⟨knows, fun _ => settled.signatures.symm ▸ id, fun _ => adds.globals.symm ▸ id⟩
  refine ⟨⟨settled.options.trans ledger.chosen, ledger.types.of_types adds.types,
    ledger.filled.of_types adds.types,
    fun decl member definition struct => knows _ (ledger.structs decl member definition struct),
    ledger.roster.of_signatures settled.signatures knows, ledger.stock.of_globals adds.globals knows, ?_⟩,
    expands⟩
  exact (adds.every ledger.code).mono (fun _ _ closed => closed.expand expands)
      fun _ closed => closed.expand expands

end Books

namespace Build

variable {builder : Builder}

theorem settled_emitTemp (op : Operation) (ty : Ty) :
    Returns (emitTemp op ty) builder fun _ after => builder.Settled after :=
  returns_emitTemp fun _ _ _ => ⟨Module.signatures_modifyBlock .., rfl⟩

theorem settled_ensureEntry (func : FuncId) :
    Returns (ensureEntry func) builder fun _ after => builder.Settled after :=
  returns_ensureEntry ⟨Module.signatures_modifyFunction func Function.withEntry Function.bare_withEntry, rfl⟩

theorem settled_alloca (ty : Ty) (variableName : Option String) :
    Returns (alloca ty variableName) builder fun _ after => builder.Settled after := by
  refine returns_alloca fun func name start _ named => ⟨?_, named.options⟩
  show ((start.target.modifyFunction func _).modifyBlock ..).signatures = _
  rw [Module.signatures_modifyBlock, Module.signatures_modifyFunction _ _ Function.bare_withEntry,
    named.target]

theorem settled_newBlock (hint : String) :
    Returns (newBlock hint) builder fun _ after => builder.Settled after :=
  returns_newBlock fun func _ _ _ =>
    ⟨Module.signatures_modifyFunction func (fun function => function.addBlock hint)
      fun function => function.bare_withEntry, rfl⟩

theorem settled_terminate (terminator : Terminator) :
    Returns (terminate terminator) builder fun _ after => builder.Settled after :=
  returns_terminate fun _ _ _ => ⟨Module.signatures_modifyBlock .., rfl⟩

theorem settled_positionAt (func : FuncId) (id : BlockId) :
    Returns (positionAt func id) builder fun _ after => builder.Settled after := by
  refine returns_positionAt fun target same _ => ?_
  have entered : ∀ start : Builder, (start.enter func).target = start.target ∧
      (start.enter func).options = start.options := by
    intro start
    unfold Builder.enter
    split
    · exact ⟨rfl, rfl⟩
    · split <;> exact ⟨rfl, rfl⟩
  obtain ⟨target', options⟩ := entered { builder with target }
  refine ⟨?_, options⟩
  show (Builder.enter { builder with target } func).target.signatures = _
  rw [target', same, Module.signatures_modifyFunction _ _ Function.bare_withEntry]

theorem settled_pin (value : Value) :
    Returns (pin value) builder fun _ after => builder.Settled after :=
  returns_pin fun _ => ⟨rfl, rfl⟩

end Build

end TreeLowering.Lowering
