/-
This file proves that lowering loses and alters no item. Each function, constant and struct of the
program is in the module, with the types that its own types map to; the functions stand in source
order, and only functions that a body summons follow them. It also proves how far the names of a
module tell its parts apart. Globals are apart from globals and functions from functions, but the two
tables do not look at each other, so a constant and a function may share a name.
-/

import TreeLowering.Proofs.Tables.Closed
import TreeLowering.Proofs.Types.Address

namespace TreeLowering.Ir

open TreeLowering.Tree

/-- The constant has the shape of the folded value, with the same leaves in the same places. -/
inductive Constant.Mirrors : ConstValue → Constant → Prop
  | int (value : Int) : Mirrors (.int value) (.int value)
  | bool (value : Bool) : Mirrors (.bool value) (.bool value)
  | char (value : Char) : Mirrors (.char value) (.char value)
  | array {values : List ConstValue} {items : List Constant}
      (parts : List.Forall₂ Mirrors values items) : Mirrors (.array values) (.array items)
  | struct {values : List ConstValue} {items : List Constant}
      (parts : List.Forall₂ Mirrors values items) : Mirrors (.struct values) (.struct items)

/-- All names that stand behind an `@` in the declarations of the module. -/
def Module.symbols (target : Module) : List String :=
  target.globals.toList.map Global.name ++ target.functions.toList.map Function.name

theorem Module.map_name_signatures (target : Module) :
    target.signatures.map Function.name = target.functions.toList.map Function.name := by
  rw [signatures, List.map_map]
  rfl

end TreeLowering.Ir

namespace TreeLowering.Lowering

open TreeLowering.Ir TreeLowering.Tree

theorem mirrors_foldedConstant (value : ConstValue) :
    Constant.Mirrors value (foldedConstant value) := by
  induction value using foldedConstant.induct
      (motive_2 := fun values => List.Forall₂ Constant.Mirrors values (foldedConstants values)) with
  | case1 value => exact .int value
  | case2 value => exact .bool value
  | case3 value => exact .char value
  | case4 items inductionHypothesis => exact .array inductionHypothesis
  | case5 fields inductionHypothesis => exact .struct inductionHypothesis
  | case6 => exact .nil
  | case7 value rest first others => exact .cons first others

/-! ### Items -/

section Items

variable {source : Source} {options : Options} {target : Module} {done : List Item}
  {decls : List FunctionDecl} {others : List String} {work : Work}

/-- A struct that is entered has the fields of its definition. -/
theorem Ledger.struct (formed : source.WellFormed)
    (ledger : Ledger source options done decls others work) {decl : StructDecl}
    {definition : StructDef} (listed : .struct decl ∈ done)
    (struct : source.program.types.kind decl.ty = .struct definition) :
    ⟨source.names.text definition.name, some (definition.fields.map fun field =>
      source.translation field.2)⟩ ∈ work.builder.target.types := by
  obtain ⟨fields, stored⟩ := ledger.structs decl listed definition struct
  obtain ⟨⟨name, fields'⟩, found, given⟩ := Option.bind_eq_some_iff.1 stored
  obtain ⟨member, rfl⟩ := Module.typeDef?_eq_some_iff.1 found
  obtain ⟨⟨ty, definition', struct', named, rfl⟩, _⟩ :=
    ledger.types.closed.fields _ fields stored
  obtain rfl := formed.mappable.struct_eq_of_text struct struct' named.symm
  cases struct.symm.trans struct'
  rw [← show fields' = _ from given]
  exact member

/-- A function that no item declares is given no body. -/
theorem Lowered.blocks_eq_empty (lowered : Lowered source target) {function : Function}
    (member : function ∈ target.functions)
    (foreign : ∀ decl ∈ source.program.functions, source.names.text decl.link ≠ function.name) :
    function.blocks = #[] := by
  obtain ⟨index, found⟩ := Array.mem_iff_getElem?.1 member
  have bare : function.isDeclaration = true := by
    refine Bool.of_not_eq_false fun full => ?_
    obtain ⟨decl, listed, named, _⟩ := (lowered.bodies ⟨index⟩ function found).1 full
    exact foreign decl listed named
  simpa [Function.isDeclaration] using bare

/-- In a lowered module every item is there as it was declared. The functions of the program come
first, once for each link name; those behind them were summoned by a body and have none of their
own. -/
theorem lowerProgram_items (formed : source.WellFormed)
    (returned : lowerProgram source options = .ok target) :
    (∀ decl ∈ source.program.functions, ∃ function ∈ target.functions,
      function.name = source.names.text decl.link ∧
        function.signature = .func (decl.params.map fun param => source.translation param.ty)
          (source.translation decl.ret)) ∧
    (∀ decl, .const decl ∈ source.program.items → ∃ global ∈ target.globals,
      global.name = source.names.text decl.name ∧ global.ty = source.translation decl.ty ∧
        Constant.Mirrors decl.value global.init) ∧
    (∀ decl, .struct decl ∈ source.program.items → ∀ definition,
      source.program.types.kind decl.ty = .struct definition →
        ⟨source.names.text definition.name, some (definition.fields.map fun field =>
          source.translation field.2)⟩ ∈ target.types) ∧
    ∃ others, target.functions.toList.map Function.name =
        (source.program.functions.map fun decl => source.names.text decl.link).eraseDups ++ others ∧
      ∀ name ∈ others, source.Summons options name ∧
        ∀ function ∈ target.functions, function.name = name → function.blocks = #[] := by
  have lowered := lowered_of_returned returned
  obtain ⟨work, ⟨others, summoned, ledger⟩, rfl⟩ := kept_of_returned formed returned
  refine ⟨fun decl listed => ?_, fun decl listed => ?_, fun decl listed definition struct =>
    ledger.struct formed listed struct, others, ?_, fun name member => ⟨summoned name member, ?_⟩⟩
  · obtain ⟨function, member, named, signature⟩ := ledger.roster.declared decl listed
    obtain ⟨function', member', rfl⟩ := List.mem_map.1 member
    refine ⟨function', Array.mem_toList_iff.1 member', named, signature.trans ?_⟩
    rw [Source.signature, Function.signature, Function.declared, List.map_map]
    rfl
  · exact ⟨source.global decl, ledger.stock.consts decl listed, rfl, rfl,
      mirrors_foldedConstant decl.value⟩
  · rw [← Module.map_name_signatures, ledger.roster.names]
  · rintro function member' rfl
    refine lowered.blocks_eq_empty member' fun decl listed same => ?_
    have apart := work.builder.target.functions_nodup
    rw [← Module.map_name_signatures, ledger.roster.names, List.nodup_append] at apart
    exact apart.2.2 _ (List.mem_eraseDups.2 (List.mem_map_of_mem listed)) _ member same

/-- The program declares `worth`, whose body summons `log`. -/
theorem valuation_items : ∃ target, lowerProgram valuation .standard = .ok target ∧
    target.functions.toList.map Function.name = ["worth", "log"] ∧
      valuation.Summons .standard "log" := by
  have returned : ∃ target, lowerProgram valuation .standard = .ok target ∧
      target.functions.toList.map Function.name = ["worth", "log"] :=
    ⟨_, by cbv, by decide +kernel⟩
  obtain ⟨target, returned, names⟩ := returned
  obtain ⟨_, _, _, others, split, summoned⟩ := lowerProgram_items valuation_wellFormed returned
  have links : (valuation.program.functions.map fun decl =>
      valuation.names.text decl.link).eraseDups = ["worth"] := by decide +kernel
  rw [names, links] at split
  obtain rfl : ["log"] = others := List.cons.inj split |>.2
  exact ⟨target, returned, names, (summoned "log" List.mem_cons_self).1⟩

/-! ### Names -/

/-- The program gives this name to a global: it is the name of a constant, or of a text. -/
def Source.NamesGlobal (source : Source) (name : String) : Prop :=
  (∃ decl, .const decl ∈ source.program.items ∧ source.names.text decl.name = name) ∨
    ∃ number : Nat, ".str." ++ toString number = name

/-- The program gives this name to a function: it is a link name, or it is summoned. -/
def Source.NamesFunction (source : Source) (options : Options) (name : String) : Prop :=
  (∃ decl ∈ source.program.functions, source.names.text decl.link = name) ∨
    source.Summons options name

/-- A lowered module has each name once among its globals and once among its functions. Only a name
that the program gives to globals and to functions can be in both tables, so each name stands for one
part of the module when there is no such name. -/
theorem lowerProgram_symbols (formed : source.WellFormed)
    (returned : lowerProgram source options = .ok target) :
    (target.globals.toList.map Global.name).Nodup ∧
      (target.functions.toList.map Function.name).Nodup ∧
      (∀ global ∈ target.globals, source.NamesGlobal global.name) ∧
      (∀ function ∈ target.functions, source.NamesFunction options function.name) ∧
      ((∀ name, source.NamesGlobal name → ¬ source.NamesFunction options name) →
        target.symbols.Nodup) := by
  obtain ⟨work, ⟨others, summoned, ledger⟩, rfl⟩ := kept_of_returned formed returned
  have names := ledger.roster.names
  rw [Module.map_name_signatures] at names
  have globals : ∀ global ∈ work.builder.target.globals, source.NamesGlobal global.name := by
    intro global member
    rcases ledger.stock.origin global member with ⟨decl, listed, rfl⟩ | ⟨number, text, rfl⟩
    · exact .inl ⟨decl, listed, rfl⟩
    · exact .inr ⟨number, rfl⟩
  have functions : ∀ function ∈ work.builder.target.functions,
      source.NamesFunction options function.name := by
    intro function member
    have listed : function.name ∈ work.builder.target.functions.toList.map Function.name :=
      List.mem_map_of_mem (Array.mem_toList_iff.2 member)
    rw [names] at listed
    rcases List.mem_append.1 listed with link | other
    · obtain ⟨decl, member', same⟩ := List.mem_map.1 (List.mem_eraseDups.1 link)
      exact .inl ⟨decl, member', same⟩
    · exact .inr (summoned _ other)
  refine ⟨Module.globals_nodup _, Module.functions_nodup _, globals, functions, fun disjoint =>
    List.nodup_append.2 ⟨Module.globals_nodup _, Module.functions_nodup _, ?_⟩⟩
  rintro _ listed _ listed' rfl
  obtain ⟨global, member, named⟩ := List.mem_map.1 listed
  obtain ⟨function, member', rfl⟩ := List.mem_map.1 listed'
  exact disjoint _ (named ▸ globals global (Array.mem_toList_iff.1 member))
    (functions function (Array.mem_toList_iff.1 member'))

/-- Only `log` is summoned by name. -/
theorem valuation_mentions {name : String} (mentioned : valuation.Mentions name) :
    name = "log" := by
  obtain ⟨scope, looked, symbol, ty, _, resolved, rfl⟩ := mentioned
  obtain ⟨found, member, listed⟩ := ScopeTree.mem_of_resolve? resolved
  have tables : valuation.program.scopes.scopes =
      #[⟨none, [(⟨7⟩, .function ⟨7⟩ ⟨14⟩), (⟨1⟩, .const ⟨1⟩ .i32)], []⟩] := rfl
  rw [tables] at member
  obtain rfl := Array.mem_singleton.1 member
  rcases List.mem_cons.1 listed with same | listed
  · cases same
    decide +kernel
  · cases List.mem_singleton.1 listed

theorem valuation_symbols : ∃ target, lowerProgram valuation .standard = .ok target ∧
    target.symbols = ["LIMIT", ".str.0", "worth", "log"] ∧ target.symbols.Nodup := by
  have returned : ∃ target, lowerProgram valuation .standard = .ok target ∧
      target.symbols = ["LIMIT", ".str.0", "worth", "log"] := ⟨_, by cbv, by decide +kernel⟩
  obtain ⟨target, returned, symbols⟩ := returned
  refine ⟨target, returned, symbols,
    (lowerProgram_symbols valuation_wellFormed returned).2.2.2.2 fun name global function => ?_⟩
  have plain : name = "worth" ∨ name = "memcpy" ∨ name = "log" := by
    rcases function with ⟨decl, listed, rfl⟩ | rfl | mentioned
    · obtain rfl := List.mem_singleton.1 listed
      exact .inl (by decide +kernel)
    · exact .inr (.inl rfl)
    · exact .inr (.inr (valuation_mentions mentioned))
  rcases global with ⟨decl, listed, rfl⟩ | ⟨number, same⟩
  · have const : decl = ⟨⟨1⟩, .i32, .int 7, .nowhere⟩ := by
      rcases List.mem_cons.1 listed with same | listed
      · cases same
        rfl
      · rcases List.mem_cons.1 listed with same | listed
        · cases same
        · cases List.mem_singleton.1 listed
    rw [const] at plain
    revert plain
    decide +kernel
  · have numbered : ".str" ++ "." ++ toString number = name := same
    rcases plain with rfl | rfl | rfl <;> exact numbered_ne (by decide) _ _ numbered

/-- `const memcpy: usize = 3;`
`fn copy(from: &[u8; 32]) { let mut all = *from; }` -/
def copying : Source where
  names := ((((NameTable.initial.intern "memcpy").2.intern "copy").2.intern "from").2.intern
    "all").2
  program :=
    { types := ((TypePool.initial.intern (.array .u8 32)).2.intern (.reference ⟨11⟩ false)).2
      scopes := .initial
      arena := ⟨#[⟨.path [⟨3⟩], .nowhere, ⟨12⟩⟩, ⟨.deref ⟨0⟩, .nowhere, ⟨11⟩⟩,
        ⟨.block .root [.bind (.ident ⟨4⟩ true) ⟨11⟩ (some ⟨1⟩) .nowhere] none, .nowhere, .unit⟩]⟩
      items := [.const ⟨⟨1⟩, .usize, .int 3, .nowhere⟩, .function
        { name := ⟨2⟩
          link := ⟨2⟩
          params := [⟨⟨3⟩, ⟨12⟩, false, .nowhere⟩]
          ret := .unit
          body := some ⟨2⟩
          scope := .root
          span := .nowhere }] }

/-- A constant and the copy routine share a name, and the module declares both under it. -/
theorem copying_repeated : copying.WellFormed ∧ ∃ target,
    lowerProgram copying .standard = .ok target ∧
      target.symbols = ["memcpy", "copy", "memcpy"] ∧ ¬ target.symbols.Nodup := by
  have formed : copying.WellFormed :=
    .of_ordered (.intern (.intern .initial (by simp)) (by simp)) (by decide +kernel) (by decide)
      ((((NameTable.Made.initial.intern _).intern _).intern _).intern _) (by decide +kernel)
      (by decide) (by decide +kernel)
  have returned : ∃ target, lowerProgram copying .standard = .ok target ∧
      target.symbols = ["memcpy", "copy", "memcpy"] := ⟨_, by cbv, by decide +kernel⟩
  obtain ⟨target, returned, symbols⟩ := returned
  refine ⟨formed, target, returned, symbols, ?_⟩
  rw [symbols]
  decide

end Items

end TreeLowering.Lowering
