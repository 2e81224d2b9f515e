/-
This file proves that a lowered module is closed. Its struct types all have their fields, and each
struct that a part of the module mentions has one definition there. Each operand that is an address
belongs to a function or a global of the module, and each slice lies over a byte string as long as
itself. That the structs, functions and texts are declared late, in the middle of a body, leaves no
reference behind.
-/

import TreeLowering.Proofs.Tables.Body

namespace TreeLowering.Ir

/-- Whatever the module refers to is declared in it, and no struct is declared twice. -/
structure Module.Closed (target : Module) : Prop where
  /-- No struct type lacks its fields. -/
  complete : ∀ entry ∈ target.types, entry.fields ≠ none
  /-- A struct that is declared in full has no second definition. -/
  once : ∀ name, target.Knows name → (target.types.toList.map TypeDef.name).count name = 1
  fields : ∀ entry ∈ target.types, ∀ fields ∈ entry.fields, ∀ ty ∈ fields, ty.Within target.Knows
  globals : ∀ global ∈ target.globals,
    global.ty.Within target.Knows ∧ global.init.Within target.Holds
  signatures : ∀ function ∈ target.functions, function.signature.Within target.Knows
  code : ∀ function ∈ target.functions, ∀ block ∈ function.blocks,
    block.Every (Instruction.Closed target) (Terminator.Closed target)

end TreeLowering.Ir

namespace TreeLowering.Lowering

open TreeLowering.Ir TreeLowering.Tree

/-- A folded value has no slices. -/
theorem within_foldedConstant {held : String → UInt64 → Prop} (value : ConstValue) :
    (foldedConstant value).Within held := by
  induction value using foldedConstant.induct
      (motive_2 := fun values => ∀ part ∈ foldedConstants values, part.Within held) with
  | case1 value => exact .int value
  | case2 value => exact .bool value
  | case3 value => exact .char value
  | case4 items inductionHypothesis => exact .array inductionHypothesis
  | case5 fields inductionHypothesis => exact .struct inductionHypothesis
  | case6 part member => cases member
  | case7 value rest first others part member =>
    exact List.forall_mem_cons.2 ⟨first, others⟩ part member

/-- Books that are in order belong to a closed module. -/
theorem Ledger.closed {source : Source} {options : Options} {done : List Item}
    {decls : List FunctionDecl} {others : List String} {work : Work}
    (ledger : Ledger source options done decls others work) : work.builder.target.Closed where
  complete := ledger.filled
  once _ known := Module.count_of_knows known
  fields entry member fields given ty listed := by
    have stored : work.builder.target.structFields? entry.name = some fields := by
      rw [Tables.structFields?, Module.typeDef?_eq_some_iff.2 ⟨member, rfl⟩]
      exact given
    obtain ⟨_, withins⟩ := ledger.types.closed.fields entry.name fields stored
    exact (withins ty listed).mono fun _ => ledger.types.knows
  globals global member := by
    refine ⟨ledger.stock.held global member, ?_⟩
    rcases ledger.stock.origin global member with ⟨decl, _, rfl⟩ | ⟨number, text, rfl⟩
    · exact within_foldedConstant decl.value
    · exact .bytes _
  signatures function member := ledger.roster.signed function.bare (Module.mem_signatures member)
  code function member block inside := by
    obtain ⟨index, found⟩ := Array.mem_iff_getElem?.1 member
    obtain ⟨position, stored⟩ := Array.mem_iff_getElem?.1 inside
    exact ledger.code ⟨index⟩ function found ⟨position⟩ block stored

/-- A lowered module is closed. -/
theorem lowerProgram_closed {source : Source} {options : Options} {target : Module}
    (formed : source.WellFormed) (returned : lowerProgram source options = .ok target) :
    target.Closed := by
  obtain ⟨work, ⟨others, _, ledger⟩, rfl⟩ := kept_of_returned formed returned
  exact ledger.closed

/-- `const LIMIT: i32 = 7; struct Node { value: i32, next: &Node }`
`fn worth(node: &Node) -> i32 { log("low"); node.value + LIMIT }` -/
def valuation : Source where
  names := ((((((((NameTable.initial.intern "LIMIT").2.intern "Node").2.intern "value").2.intern
    "next").2.intern "worth").2.intern "node").2.intern "log").2.intern "low").2
  program :=
    { types := ((((TypePool.initial.declareStruct ⟨2⟩).2.intern (.reference ⟨11⟩ false)).2.intern
        (.reference .str false)).2.intern (.function [⟨13⟩] .unit)).2.defineFields ⟨11⟩
          [(⟨3⟩, .i32), (⟨4⟩, ⟨12⟩)]
      scopes := (ScopeTree.initial.define .root .value ⟨1⟩ (.const ⟨1⟩ .i32)).define .root .value
        ⟨7⟩ (.function ⟨7⟩ ⟨14⟩)
      arena := ⟨#[⟨.path [⟨7⟩], .nowhere, ⟨14⟩⟩, ⟨.str ⟨8⟩, .nowhere, ⟨13⟩⟩,
        ⟨.call ⟨0⟩ [⟨1⟩], .nowhere, .unit⟩, ⟨.path [⟨6⟩], .nowhere, ⟨12⟩⟩,
        ⟨.field ⟨3⟩ ⟨3⟩, .nowhere, .i32⟩, ⟨.path [⟨1⟩], .nowhere, .i32⟩,
        ⟨.binary .add ⟨4⟩ ⟨5⟩, .nowhere, .i32⟩,
        ⟨.block .root [.semi ⟨2⟩] (some ⟨6⟩), .nowhere, .i32⟩]⟩
      items := [.const ⟨⟨1⟩, .i32, .int 7, .nowhere⟩, .struct ⟨⟨2⟩, ⟨11⟩, .nowhere⟩, .function
        { name := ⟨5⟩
          link := ⟨5⟩
          params := [⟨⟨6⟩, ⟨12⟩, false, .nowhere⟩]
          ret := .i32
          body := some ⟨7⟩
          scope := .root
          span := .nowhere }] }

theorem valuation_wellFormed : valuation.WellFormed :=
  .of_ordered (.defineFields (.intern (.intern (.intern (.declareStruct .initial _) (by simp))
    (by simp)) (by simp)) _ _) (by decide +kernel) (by decide)
    ((((((((NameTable.Made.initial.intern _).intern _).intern _).intern _).intern _).intern
      _).intern _).intern _) (by decide +kernel) (by decide) (by decide +kernel)

theorem valuation_closed : ∃ target, lowerProgram valuation .standard = .ok target ∧
    target.functions.size = 2 ∧ target.Closed := by
  have returned : ∃ target, lowerProgram valuation .standard = .ok target ∧
      target.functions.size = 2 := ⟨_, by cbv, by decide +kernel⟩
  obtain ⟨target, returned, size⟩ := returned
  exact ⟨target, returned, size, lowerProgram_closed valuation_wellFormed returned⟩

end TreeLowering.Lowering
