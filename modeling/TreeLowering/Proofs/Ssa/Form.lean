/-
This file defines static single assignment by way of the paths through a function, and proves that
a certified function is in that form. A path can only come to a block with the registers of its
certificate set, so the block that sets such a register lies on every path there.
-/

import TreeLowering.Proofs.Ssa.Edit

namespace TreeLowering.Ir

namespace Function

/-- The ways from the entry block to a block, with the blocks passed before it, last first. -/
inductive Trail (function : Function) : List BlockId → BlockId → Prop
  | start : Trail function [] entryId
  | step {passed : List BlockId} {source target : BlockId} : Trail function passed source →
      function.Precedes source target → Trail function (source :: passed) target

/-- Whether every way to a block passes another one, or ends in it. -/
def Dominates (function : Function) (definer user : BlockId) : Prop :=
  ∀ passed, function.Trail passed user → definer ∈ user :: passed

/-- Whether a register is set in its block by `earlier`, or in a block on every way there. -/
def SetBefore (function : Function) (id : BlockId) (earlier : List Instruction)
    (reg : Register) : Prop :=
  (∃ inst ∈ earlier, inst.register = reg) ∨
    ∃ definer, definer ≠ id ∧ function.Defines definer reg ∧ function.Dominates definer id

/-- Every operand of a block, that of its terminator included. -/
def Reads (function : Function) (id : BlockId) (value : Value) : Prop :=
  (∃ inst ∈ function.code id, value ∈ inst.op.operands) ∨
    ∃ terminator, function.exit? id = some terminator ∧ value ∈ terminator.operands

/-- What is asked of a phi at a position of a block. -/
structure PhiForm (function : Function) (id : BlockId) (earlier : List Instruction)
    (incoming : List (Value × BlockId)) : Prop where
  first : earlier = []
  once : (incoming.map Prod.snd).Nodup
  blocks : ∀ source, source ∈ incoming.map Prod.snd ↔ function.Precedes source id
  values : ∀ arm ∈ incoming, ∀ name ty, arm.1 = .reg name ty →
    function.SetBefore arm.2 (function.code arm.2) (name, ty)

/-- Static single assignment: every register is set by one instruction, and that instruction comes
before every use. -/
structure SsaForm (function : Function) : Prop where
  names : ((function.blocks.toList.flatMap fun block => block.insts.toList).map
    Instruction.name).Nodup
  params : ∀ id name ty, function.Reads id (.param name ty) → ⟨name, ty⟩ ∈ function.params
  uses : ∀ id earlier inst later, function.code id = earlier ++ inst :: later →
    inst.op.isPhi = false → ∀ name ty, .reg name ty ∈ inst.op.operands →
    function.SetBefore id earlier (name, ty)
  exits : ∀ id terminator, function.exit? id = some terminator → ∀ name ty,
    .reg name ty ∈ terminator.operands → function.SetBefore id (function.code id) (name, ty)
  phis : ∀ id earlier inst later incoming, function.code id = earlier ++ inst :: later →
    inst.op = .phi incoming → function.PhiForm id earlier incoming

theorem Trail.entry_mem {function : Function} {passed : List BlockId} {id : BlockId}
    (trail : function.Trail passed id) : entryId ∈ id :: passed := by
  induction trail with
  | start => exact List.mem_cons_self
  | step _ _ inductionHypothesis => exact List.mem_cons_of_mem _ inductionHypothesis

/-- Where there is no block, there is nothing to ask. -/
theorem SsaForm.of_declaration {function : Function} (bare : function.isDeclaration = true) :
    function.SsaForm := by
  have empty : function.blocks = #[] := Array.isEmpty_iff.1 bare
  have code : ∀ id, function.code id = [] := fun id => by simp [Function.code, block?, empty]
  have exit : ∀ id, function.exit? id = none := fun id => by simp [exit?, block?, empty]
  refine ⟨by simp [empty], fun id name ty reads => ?_, fun id earlier inst later split => ?_,
    fun id terminator found => ?_, fun id earlier inst later incoming split => ?_⟩
  · rcases reads with ⟨inst, member, _⟩ | ⟨terminator, found, _⟩
    · rw [code] at member
      cases member
    · rw [exit] at found
      cases found
  · simp [code] at split
  · rw [exit] at found
    cases found
  · simp [code] at split

end Function

namespace Certified

variable {function : Function} {avail : BlockId → Register → Prop}

/-- What is known where a path arrives was set on the way. -/
theorem set_on_trail (certified : Certified function avail) {passed : List BlockId} {id : BlockId}
    (trail : function.Trail passed id) {reg : Register} (known : function.KnownAt avail id reg) :
    ∃ definer ∈ passed, function.Defines definer reg := by
  induction trail generalizing reg with
  | start =>
    rcases known with available | ⟨inner, _⟩
    · exact absurd available (certified.entry reg)
    · exact absurd rfl inner
  | @step passed source target trail edge inductionHypothesis =>
    rcases known with available | ⟨_, inst, member, _, same⟩
    · rcases certified.edges source target edge reg available with before | here
      · obtain ⟨definer, member, defines⟩ := inductionHypothesis before
        exact ⟨definer, List.mem_cons_of_mem _ member, defines⟩
      · exact ⟨source, List.mem_cons_self, here⟩
    · exact ⟨Function.entryId, trail.entry_mem, inst, member, same⟩

theorem definer_unique (certified : Certified function avail) {first second : BlockId}
    {reg : Register} (defines : function.Defines first reg) (defines' : function.Defines second reg) :
    first = second := by
  obtain ⟨inst, member, same⟩ := defines
  obtain ⟨inst', member', same'⟩ := defines'
  exact certified.apart first second inst member inst' member'
    (congrArg Prod.fst (same.trans same'.symm))

/-- What is known at the beginning of a block is set in one that lies on every way there. -/
theorem dominated (certified : Certified function avail) {id : BlockId} {reg : Register}
    (known : function.KnownAt avail id reg) :
    ∃ definer, definer ≠ id ∧ function.Defines definer reg ∧ function.Dominates definer id := by
  obtain ⟨definer, elsewhere, defines⟩ : ∃ definer, definer ≠ id ∧ function.Defines definer reg := by
    rcases known with available | ⟨inner, inst, member, _, same⟩
    · exact certified.elsewhere id reg available
    · exact ⟨Function.entryId, inner.symm, inst, member, same⟩
  refine ⟨definer, elsewhere, defines, fun passed trail => ?_⟩
  obtain ⟨definer', member, defines'⟩ := certified.set_on_trail trail known
  rw [certified.definer_unique defines defines']
  exact List.mem_cons_of_mem _ member

theorem setBefore_of_known (certified : Certified function avail) {id : BlockId} {reg : Register}
    {earlier : List Instruction}
    (known : function.KnownAt avail id reg ∨ ∃ inst ∈ earlier, inst.register = reg) :
    function.SetBefore id earlier reg :=
  known.elim (fun before => Or.inr (certified.dominated before)) Or.inl

/-- The names of a function are those of its blocks, one block after the other. -/
theorem names_nodup (certified : Certified function avail) :
    ((function.blocks.toList.flatMap fun block => block.insts.toList).map
      Instruction.name).Nodup := by
  have code : ∀ index block, function.blocks.toList[index]? = some block →
      function.code ⟨index⟩ = block.insts.toList := by
    intro index block found
    rw [Array.getElem?_toList] at found
    rw [Function.code, Function.block?, found]
  rw [List.map_flatMap, List.nodup_flatMap]
  refine ⟨fun block member => ?_, List.pairwise_iff_getElem.2 fun index index' bound bound' less => ?_⟩
  · obtain ⟨index, found⟩ := List.mem_iff_getElem?.1 member
    rw [← code index block found]
    exact certified.distinct ⟨index⟩
  · show List.Disjoint (List.map Instruction.name _) (List.map Instruction.name _)
    rw [← code index _ (List.getElem?_eq_getElem bound),
      ← code index' _ (List.getElem?_eq_getElem bound'), List.disjoint_left]
    intro name member member'
    obtain ⟨inst, inside, rfl⟩ := List.mem_map.1 member
    obtain ⟨inst', inside', same⟩ := List.mem_map.1 member'
    have equal := certified.apart _ _ inst inside inst' inside' same.symm
    rw [BlockId.mk.injEq] at equal
    omega

/-- A phi reads what is known at the end of the blocks before it. -/
theorem readable_of_phi (certified : Certified function avail) {id : BlockId} {inst : Instruction}
    (member : inst ∈ function.code id) (isPhi : inst.op.isPhi = true) {value : Value}
    (operand : value ∈ inst.op.operands) :
    ∃ source, value.Readable function.params (function.KnownAfter avail source) := by
  cases shape : inst.op with
  | phi incoming =>
    rw [shape] at operand
    obtain ⟨arm, inside, rfl⟩ := List.mem_map.1 operand
    exact ⟨arm.2, (certified.phis id inst incoming member shape).values arm inside⟩
  | _ =>
    rw [shape] at isPhi
    cases isPhi

/-- Whatever a block reads is readable somewhere. -/
theorem readable_of_reads (certified : Certified function avail) {id : BlockId} {value : Value}
    (reads : function.Reads id value) :
    ∃ known, value.Readable function.params known := by
  rcases reads with ⟨inst, member, operand⟩ | ⟨terminator, exit, operand⟩
  · cases isPhi : inst.op.isPhi with
    | true =>
      obtain ⟨source, readable⟩ := certified.readable_of_phi member isPhi operand
      exact ⟨_, readable⟩
    | false =>
      obtain ⟨earlier, later, split⟩ := List.append_of_mem member
      have ordered := certified.ordered id
      rw [split] at ordered
      exact ⟨_, ordered.readable isPhi operand⟩
  · exact ⟨_, certified.closing id terminator exit value operand⟩

/-- A certified function is in static single assignment form. -/
theorem ssaForm (certified : Certified function avail) : function.SsaForm := by
  refine ⟨certified.names_nodup, fun id name ty reads => ?_,
    fun id earlier inst later split plain name ty operand => ?_,
    fun id terminator exit name ty operand => ?_,
    fun id earlier inst later incoming split shape => ?_⟩
  · obtain ⟨known, readable⟩ := certified.readable_of_reads reads
    exact readable
  · have ordered := certified.ordered id
    rw [split] at ordered
    exact certified.setBefore_of_known (ordered.readable plain operand)
  · exact certified.setBefore_of_known (certified.closing id terminator exit _ operand)
  · have member : inst ∈ function.code id := by
      rw [split]
      exact List.mem_append_right _ List.mem_cons_self
    have phi := certified.phis id inst incoming member shape
    refine ⟨?_, phi.once, phi.blocks, fun arm inside name ty same => ?_⟩
    · cases earlier with
      | nil => rfl
      | cons other earlier =>
        -- the phi begins its block, so it would be there twice
        have first := phi.first
        have distinct := certified.distinct id
        rw [split, List.cons_append, List.head?_cons, Option.some.injEq] at first
        rw [split, first] at distinct
        simp at distinct
    · have readable := phi.values arm inside
      rw [same] at readable
      exact certified.setBefore_of_known readable

end Certified

end TreeLowering.Ir
