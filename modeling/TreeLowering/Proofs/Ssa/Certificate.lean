/-
This file defines which registers a function may read where. A register is available at the
beginning of a block when every way there sets it, and a function carries no record of that; so the
record is kept beside it, as a certificate: a set of registers for each block. What makes a
certificate valid is checked block by block and edge by edge (`Certified`), which is what lets it
grow together with the function. Stack slots need no record, because they all stand in the entry
block.
-/

import TreeLowering.Ir.Function

namespace TreeLowering.Ir

/-- A register together with its type. -/
abbrev Register := ValueName × Ty

def Instruction.register (inst : Instruction) : Register := (inst.name, inst.ty)

@[simp] theorem Instruction.register_eq {inst : Instruction} {name : ValueName} {ty : Ty} :
    inst.register = (name, ty) ↔ inst.name = name ∧ inst.ty = ty := by
  rw [Instruction.register, Prod.mk.injEq]

def Operation.isPhi : Operation → Bool
  | phi _ => true
  | _ => false

/-- Every operand a terminator reads. -/
def Terminator.operands : Terminator → List Value
  | ret value => value.toList
  | branch test _ _ => [test]
  | jump _ => []

/-- Whether an operand may be read where the registers in `known` are set. -/
def Value.Readable (params : List Param) (known : Register → Prop) : Value → Prop
  | reg name ty => known (name, ty)
  | param name ty => ⟨name, ty⟩ ∈ params
  | _ => True

theorem Value.Readable.mono {params : List Param} {known known' : Register → Prop} {value : Value}
    (readable : value.Readable params known) (more : ∀ reg, known reg → known' reg) :
    value.Readable params known' := by
  cases value <;> simp only [Value.Readable] at readable ⊢
  · exact more _ readable
  · exact readable

/-- Each instruction of a block reads what is known at its beginning or set before it. What a phi
reads is set in other blocks. -/
def InOrder (params : List Param) : (known : Register → Prop) → List Instruction → Prop
  | _, [] => True
  | known, inst :: rest =>
    (inst.op.isPhi = false → ∀ value ∈ inst.op.operands, value.Readable params known) ∧
      InOrder params (fun reg => known reg ∨ inst.register = reg) rest

namespace InOrder

variable {params : List Param} {known known' : Register → Prop}

theorem mono {insts : List Instruction} (ordered : InOrder params known insts)
    (more : ∀ reg, known reg → known' reg) : InOrder params known' insts := by
  induction insts generalizing known known' with
  | nil => trivial
  | cons inst rest inductionHypothesis =>
    refine ⟨fun plain value member => (ordered.1 plain value member).mono more, ?_⟩
    exact inductionHypothesis ordered.2 fun reg => Or.imp_left (more reg)

/-- Two runs of instructions in a row. -/
theorem append_iff {first second : List Instruction} :
    InOrder params known (first ++ second) ↔
      InOrder params known first ∧
        InOrder params (fun reg => known reg ∨ ∃ inst ∈ first, inst.register = reg) second := by
  induction first generalizing known with
  | nil => simp [InOrder]
  | cons inst rest inductionHypothesis =>
    rw [List.cons_append, InOrder, InOrder, inductionHypothesis, and_assoc]
    simp only [List.mem_cons, exists_eq_or_imp, or_assoc]

/-- What the instruction behind `before` reads is known or set in `before`. -/
theorem readable {before after : List Instruction} {inst : Instruction} {value : Value}
    (ordered : InOrder params known (before ++ inst :: after)) (plain : inst.op.isPhi = false)
    (member : value ∈ inst.op.operands) :
    value.Readable params fun reg => known reg ∨ ∃ earlier ∈ before, earlier.register = reg :=
  (append_iff.1 ordered).2.1 plain value member

/-- A register that no instruction reads may be forgotten, together with the instruction that
sets it. -/
theorem forget {insts : List Instruction} {name : ValueName} (ordered : InOrder params known insts)
    (unused : ∀ inst ∈ insts, inst.uses name = false) :
    InOrder params (fun reg => known reg ∧ reg.1 ≠ name)
      (insts.filter fun inst => inst.name ≠ name) := by
  induction insts generalizing known with
  | nil => trivial
  | cons inst rest inductionHypothesis =>
    have unread : inst.uses name = false := unused inst List.mem_cons_self
    have tail := inductionHypothesis ordered.2 fun other member =>
      unused other (List.mem_cons_of_mem _ member)
    by_cases same : inst.name = name
    · rw [List.filter_cons_of_neg (by simp [same])]
      refine tail.mono fun reg => ?_
      rintro ⟨isKnown | rfl, differs⟩
      · exact ⟨isKnown, differs⟩
      · exact absurd same differs
    · rw [List.filter_cons_of_pos (by simp [same])]
      refine ⟨fun plain value member => ?_, tail.mono fun reg => ?_⟩
      · have readable := ordered.1 plain value member
        have differs : value.regName? ≠ some name := by
          simp only [Instruction.uses, List.any_eq_false, beq_iff_eq] at unread
          exact unread value member
        cases value <;> simp_all [Value.Readable, Value.regName?]
      · rintro ⟨isKnown | rfl, differs⟩
        · exact Or.inl ⟨isKnown, differs⟩
        · exact Or.inr rfl

end InOrder

namespace Function

/-- The instructions of a block; a block that does not exist has none. -/
def code (function : Function) (id : BlockId) : List Instruction :=
  match function.block? id with
  | some block => block.insts.toList
  | none => []

/-- How control leaves a block. -/
def exit? (function : Function) (id : BlockId) : Option Terminator :=
  (function.block? id).bind Block.terminator

/-- Whether an instruction of the block sets the register. -/
def Defines (function : Function) (id : BlockId) (reg : Register) : Prop :=
  ∃ inst ∈ function.code id, inst.register = reg

/-- Whether some instruction of the function sets the register. -/
def Present (function : Function) (reg : Register) : Prop := ∃ id, function.Defines id reg

/-- Whether some instruction of the function sets a register of that name. -/
def Names (function : Function) (name : ValueName) : Prop := ∃ ty, function.Present (name, ty)

/-- Whether the register is the address of a stack slot. -/
def IsSlot (function : Function) (reg : Register) : Prop :=
  ∃ inst ∈ function.code entryId, inst.op.isAlloca = true ∧ inst.register = reg

/-- Whether control can go from one block straight to another. -/
def Precedes (function : Function) (source target : BlockId) : Prop :=
  ∃ terminator, function.exit? source = some terminator ∧ target ∈ terminator.successors

/-- Whether nothing in the function reads the register. -/
structure Unused (function : Function) (name : ValueName) : Prop where
  code : ∀ id, ∀ inst ∈ function.code id, inst.uses name = false
  exits : ∀ id terminator, function.exit? id = some terminator →
    ∀ value ∈ terminator.operands, value.regName? ≠ some name

/-- Whether a block has no phi. -/
def PhiFree (function : Function) (id : BlockId) : Prop :=
  ∀ inst ∈ function.code id, inst.op.isPhi = false

/-- The registers set at the beginning of a block. -/
def KnownAt (function : Function) (avail : BlockId → Register → Prop) (id : BlockId)
    (reg : Register) : Prop :=
  avail id reg ∨ id ≠ entryId ∧ function.IsSlot reg

/-- The registers set at the end of a block. -/
def KnownAfter (function : Function) (avail : BlockId → Register → Prop) (id : BlockId)
    (reg : Register) : Prop :=
  function.KnownAt avail id reg ∨ function.Defines id reg

end Function

/-- What a phi has to obey: it begins its block, takes one value for each block before it, and each
value is set at the end of that block. -/
structure PhiCertified (function : Function) (avail : BlockId → Register → Prop) (id : BlockId)
    (inst : Instruction) (incoming : List (Value × BlockId)) : Prop where
  inner : id ≠ Function.entryId
  first : (function.code id).head? = some inst
  once : (incoming.map Prod.snd).Nodup
  blocks : ∀ source, source ∈ incoming.map Prod.snd ↔ function.Precedes source id
  values : ∀ arm ∈ incoming, arm.1.Readable function.params (function.KnownAfter avail arm.2)

/-- The certificate `avail` gives registers that are indeed set at the beginning of each block, and
the function reads nothing else. -/
structure Certified (function : Function) (avail : BlockId → Register → Prop) : Prop where
  distinct : ∀ id, ((function.code id).map Instruction.name).Nodup
  apart : ∀ id id', ∀ inst ∈ function.code id, ∀ inst' ∈ function.code id',
    inst.name = inst'.name → id = id'
  ordered : ∀ id, InOrder function.params (function.KnownAt avail id) (function.code id)
  closing : ∀ id terminator, function.exit? id = some terminator →
    ∀ value ∈ terminator.operands,
      value.Readable function.params (function.KnownAfter avail id)
  inner : ∀ id target, function.Precedes id target →
    target ≠ Function.entryId ∧ (function.block? target).isSome
  edges : ∀ id target, function.Precedes id target → ∀ reg, avail target reg →
    function.KnownAfter avail id reg
  /-- What is set at the beginning of a block is set in another one. -/
  elsewhere : ∀ id reg, avail id reg → ∃ id', id' ≠ id ∧ function.Defines id' reg
  entry : ∀ reg, ¬ avail Function.entryId reg
  phis : ∀ id inst incoming, inst ∈ function.code id → inst.op = .phi incoming →
    PhiCertified function avail id inst incoming

end TreeLowering.Ir
