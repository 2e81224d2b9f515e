/-
This file proves what form a lowered program has. No body is left half built: the blocks of every
function are numbered and labelled apart, each of them is closed, and each jump has a block to go
to. A function has blocks exactly when the program gives a body for its name. And every function is
in static single assignment form, although loads are dropped while it is built.
-/

import Mathlib
import TreeLowering.Proofs.Flow.Name
import TreeLowering.Proofs.Flow.Program
import TreeLowering.Proofs.Ssa.Form

namespace TreeLowering.Ir

/-- The blocks of a function fit together. -/
structure Function.Connected (function : Function) : Prop where
  entry : (function.blocks[0]?).map Block.label = some "entry"
  numbered : ∀ (index : Nat) (block : Block), function.blocks[index]? = some block →
    block.id = ⟨index⟩
  labels : (function.blocks.toList.map Block.label).Nodup
  closed : ∀ block ∈ function.blocks, block.isTerminated = true
  successors : ∀ block ∈ function.blocks, ∀ terminator, block.terminator = some terminator →
    ∀ target ∈ terminator.successors, ∃ block' ∈ function.blocks, block'.id = target

/-- Labels that carry their number differ from one another, and from the label of the entry. -/
theorem Function.Labelled.labels_nodup {function : Function} (labelled : function.Labelled) :
    (function.blocks.toList.map Block.label).Nodup := by
  have numbered : ∀ (index : Nat) block, function.blocks[index]? = some block → index ≠ 0 →
      ∃ hint, block.label = hint ++ "." ++ toString index := fun index block found inner =>
    labelled.labels ⟨index⟩ block found fun same => inner (congrArg BlockId.index same)
  have first : ∀ block, function.blocks[0]? = some block → block.label = "entry" := by
    intro block found
    obtain ⟨entry, found', named⟩ := labelled.entry
    cases found.symm.trans found'
    exact named
  have plain : '.' ∉ "entry".toList := by decide
  rw [List.nodup_iff_injective_getElem]
  rintro ⟨index, bound⟩ ⟨index', bound'⟩ same
  simp only [List.getElem_map, Array.getElem_toList] at same
  rw [List.length_map, Array.length_toList] at bound bound'
  have found := Array.getElem?_eq_getElem bound
  have found' := Array.getElem?_eq_getElem bound'
  rw [Fin.mk.injEq]
  by_cases zero : index = 0 <;> by_cases zero' : index' = 0
  · rw [zero, zero']
  · subst zero
    obtain ⟨hint, label⟩ := numbered index' _ found' zero'
    rw [first _ found, label] at same
    exact absurd same.symm (Lowering.numbered_ne plain hint index')
  · subst zero'
    obtain ⟨hint, label⟩ := numbered index _ found zero
    rw [first _ found', label] at same
    exact absurd same (Lowering.numbered_ne plain hint index)
  · obtain ⟨hint, label⟩ := numbered index _ found zero
    obtain ⟨hint', label'⟩ := numbered index' _ found' zero'
    rw [label, label'] at same
    exact Lowering.numbered_injective same

theorem Function.Finished.connected {function : Function} (finished : function.Finished) :
    function.Connected := by
  have labelled := finished.labelled
  obtain ⟨avail, certified⟩ := finished.certified
  refine ⟨?_, fun index block found => labelled.ids ⟨index⟩ block found, labelled.labels_nodup,
    fun block member => ?_, fun block member terminator exit target successor => ?_⟩
  · obtain ⟨entry, found, named⟩ := labelled.entry
    rw [show function.blocks[0]? = some entry from found, Option.map_some, named]
  · obtain ⟨index, found⟩ := Array.mem_iff_getElem?.1 member
    exact finished.closed ⟨index⟩ block found
  · obtain ⟨index, found⟩ := Array.mem_iff_getElem?.1 member
    have edge : function.Precedes ⟨index⟩ target := by
      refine ⟨terminator, ?_, successor⟩
      rw [exit?_of_block? found, exit]
    obtain ⟨block', found'⟩ := Option.isSome_iff_exists.1 (certified.inner _ _ edge).2
    exact ⟨block', Array.mem_of_getElem? found', labelled.ids target block' found'⟩

end TreeLowering.Ir

namespace TreeLowering.Lowering

open TreeLowering.Ir TreeLowering.Tree

/-- In a lowered program the blocks of every function fit together, every declared function is
there, and those that were given a body are the ones with blocks. -/
theorem lowerProgram_connected {source : Source} {options : Options} {target : Module}
    (returned : lowerProgram source options = .ok target) :
    (∀ function ∈ target.functions, function.isDeclaration = false → function.Connected) ∧
      (∀ decl ∈ source.program.functions, ∃ function ∈ target.functions,
        function.name = source.names.text decl.link) ∧
      ∀ function ∈ target.functions, function.isDeclaration = false ↔
        ∃ decl ∈ source.program.functions,
          source.names.text decl.link = function.name ∧ decl.body.isSome = true := by
  have lowered := lowered_of_returned returned
  refine ⟨fun function member full => ?_, fun decl listed => ?_, fun function member => ?_⟩
  · obtain ⟨index, found⟩ := Array.mem_iff_getElem?.1 member
    exact (lowered.finished ⟨index⟩ function found full).connected
  · obtain ⟨func, function, found, named⟩ := lowered.declared decl listed
    exact ⟨function, Array.mem_of_getElem? found, named⟩
  · obtain ⟨index, found⟩ := Array.mem_iff_getElem?.1 member
    exact lowered.bodies ⟨index⟩ function found

/-- `fn max(a: i32, b: i32) -> i32 { if a < b { b } else { a } }` -/
def maximum : Source where
  names := ⟨#["", "max", "a", "b"]⟩
  program :=
    { types := .initial
      scopes := .initial
      arena := ⟨#[⟨.path [⟨2⟩], .nowhere, .i32⟩, ⟨.path [⟨3⟩], .nowhere, .i32⟩,
        ⟨.binary .lt ⟨0⟩ ⟨1⟩, .nowhere, .bool⟩, ⟨.cond ⟨2⟩ ⟨1⟩ (some ⟨0⟩), .nowhere, .i32⟩]⟩
      items := [.function
        { name := ⟨1⟩
          link := ⟨1⟩
          params := [⟨⟨2⟩, .i32, false, .nowhere⟩, ⟨⟨3⟩, .i32, false, .nowhere⟩]
          ret := .i32
          body := some ⟨3⟩
          scope := .root
          span := .nowhere }] }

/-- What `maximum` is lowered to. -/
def maximumFunction : Function where
  name := "max"
  params := [⟨"a", .i32⟩, ⟨"b", .i32⟩]
  ret := .i32
  blocks := #[
    ⟨⟨0⟩, "entry", #[⟨.temp 0, .bool, .cmp .slt (.param "a" .i32) (.param "b" .i32)⟩],
      some (.branch (.reg (.temp 0) .bool) ⟨1⟩ ⟨2⟩)⟩,
    ⟨⟨1⟩, "then.1", #[], some (.jump ⟨3⟩)⟩,
    ⟨⟨2⟩, "else.2", #[], some (.jump ⟨3⟩)⟩,
    ⟨⟨3⟩, "merge.3",
      #[⟨.temp 1, .i32, .phi [(.param "b" .i32, ⟨1⟩), (.param "a" .i32, ⟨2⟩)]⟩],
      some (.ret (some (.reg (.temp 1) .i32)))⟩]

theorem lowerProgram_maximum :
    lowerProgram maximum .standard =
      .ok ((Module.empty "main").addFunction maximumFunction rfl) := by
  cbv

theorem maximumFunction_connected : maximumFunction.Connected :=
  (lowerProgram_connected lowerProgram_maximum).1 maximumFunction Array.mem_push_self rfl

/-- In a lowered program every function is in static single assignment form. -/
theorem lowerProgram_ssaForm {source : Source} {options : Options} {target : Module}
    (returned : lowerProgram source options = .ok target) :
    ∀ function ∈ target.functions, function.SsaForm := by
  intro function member
  obtain ⟨index, found⟩ := Array.mem_iff_getElem?.1 member
  cases full : function.isDeclaration with
  | false =>
    obtain ⟨avail, certified⟩ := ((lowered_of_returned returned).finished ⟨index⟩ _ found full).certified
    exact certified.ssaForm
  | true => exact .of_declaration full

theorem maximumFunction_ssaForm : maximumFunction.SsaForm :=
  lowerProgram_ssaForm lowerProgram_maximum maximumFunction Array.mem_push_self

end TreeLowering.Lowering
