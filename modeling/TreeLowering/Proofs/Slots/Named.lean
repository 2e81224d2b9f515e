/-
This file follows the slots that have a name, which are the slots of variables. Binding a parameter
or a local reserves at most one of them, and only `alloca` with a variable reserves any.
-/

import TreeLowering.Proofs.Pair.Diagonal
import TreeLowering.Proofs.Regime.Every

namespace TreeLowering.Ir

/-! ### Named slots -/

/-- The instruction reserves a slot that has a name. -/
def Instruction.isNamedSlot (inst : Instruction) : Bool :=
  match inst.name with
  | .named _ => inst.op.isAlloca
  | .temp _ => false

/-- The instruction reserves the slot with this name. -/
def Instruction.isSlot (text : String) (inst : Instruction) : Bool :=
  inst.op.isAlloca && inst.name == .named text

/-- How many slots with a name the block reserves. -/
def Block.namedSlots (block : Block) : Nat := block.insts.toList.countP Instruction.isNamedSlot

def Function.namedSlots (function : Function) : Nat :=
  (function.blocks.toList.map Block.namedSlots).sum

def Module.namedSlots (target : Module) : Nat :=
  (target.functions.toList.map Function.namedSlots).sum

/-- Whether a function has a slot with this name. -/
def Module.hasSlot (target : Module) (func : FuncId) (text : String) : Bool :=
  match target.function? func with
  | some function => function.blocks.any fun block => block.insts.any (·.isSlot text)
  | none => false

/-- A module lacks a slot when no instruction of the function reserves it. -/
theorem Module.hasSlot_eq_false_iff {target : Module} {func : FuncId} {text : String} :
    target.hasSlot func text = false ↔
      target.Every (fun other inst => other = func → inst.isSlot text = false) fun _ => True := by
  constructor
  · intro lacks other function found id block stored
    refine ⟨fun inst member same => ?_, fun _ _ => trivial⟩
    subst same
    rw [hasSlot, found] at lacks
    dsimp only at lacks
    rw [Array.any_eq_false'] at lacks
    have none := lacks block (Array.mem_of_getElem? stored)
    rw [Array.any_eq_true'] at none
    exact Bool.eq_false_iff.2 fun slot => none ⟨inst, Array.mem_toList_iff.1 member, slot⟩
  · intro every
    unfold hasSlot
    cases found : target.function? func with
    | none => rfl
    | some function =>
      dsimp only
      rw [Array.any_eq_false']
      intro block member present
      obtain ⟨index, stored⟩ := Array.getElem?_of_mem member
      rw [Array.any_eq_true'] at present
      obtain ⟨inst, listed, slot⟩ := present
      have lacks := (every func function found ⟨index⟩ block stored).insts inst
        (Array.mem_toList_iff.2 listed) rfl
      rw [lacks] at slot
      cases slot

/-! ### Counting -/

/-- A list in which one entry changes changes its sum by no more than that entry. -/
theorem sum_map_modify_le {α : Type} {measure : α → Nat} {change : α → α} {more : Nat}
    (grows : ∀ item, measure (change item) ≤ measure item + more) (items : List α) (index : Nat) :
    ((items.modify index change).map measure).sum ≤ (items.map measure).sum + more := by
  induction items generalizing index with
  | nil => simp
  | cons first rest inductionHypothesis =>
    cases index with
    | zero =>
      have one := grows first
      simp only [List.modify_zero_cons, List.map_cons, List.sum_cons]
      omega
    | succ index =>
      have others := inductionHypothesis index
      simp only [List.modify_succ_cons, List.map_cons, List.sum_cons]
      omega

namespace Module

variable {target : Module} {more : Nat}

theorem namedSlots_modifyFunction_le (func : FuncId) {change : Function → Function}
    {named : ∀ function, (change function).name = function.name}
    (grows : ∀ function, (change function).namedSlots ≤ function.namedSlots + more) :
    (target.modifyFunction func change named).namedSlots ≤ target.namedSlots + more := by
  show ((target.functions.modify func.index change).toList.map Function.namedSlots).sum ≤ _
  rw [Array.toList_modify]
  exact sum_map_modify_le grows _ _

theorem namedSlots_modifyBlock_le (func : FuncId) (id : BlockId) {change : Block → Block}
    (grows : ∀ block, (change block).namedSlots ≤ block.namedSlots + more) :
    (target.modifyBlock func id change).namedSlots ≤ target.namedSlots + more := by
  refine namedSlots_modifyFunction_le func fun function => ?_
  unfold Function.namedSlots Function.modifyBlock
  rw [Array.toList_modify]
  exact sum_map_modify_le grows _ _

theorem namedSlots_withEntry_le (func : FuncId) :
    (target.modifyFunction func Function.withEntry).namedSlots ≤ target.namedSlots := by
  have grows : ∀ function : Function, function.withEntry.namedSlots ≤ function.namedSlots + 0 := by
    intro function
    unfold Function.withEntry
    split
    · exact Nat.zero_le _
    · exact Nat.le_refl _
  exact namedSlots_modifyFunction_le func grows

theorem namedSlots_declareFunction {second : Module} {name : String} {params : List Param} {ret : Ty}
    {func : FuncId} (declared : target.declareFunction name params ret = .ok func second) :
    second.namedSlots = target.namedSlots := by
  rcases declareFunction_ok declared with ⟨_, _, rfl⟩ | ⟨rfl, _⟩
  · show ((target.functions.push _).toList.map Function.namedSlots).sum = _
    rw [Array.toList_push, List.map_append, List.sum_append]
    rfl
  · rfl

end Module

end TreeLowering.Ir

namespace TreeLowering.Lowering

open TreeLowering.Ir TreeLowering.Tree

/-! ### Steps -/

namespace Build

variable {builder : Builder}

/-- What is emitted has no name. -/
theorem namedSlots_emitTemp (op : Operation) (ty : Ty) :
    Returns (emitTemp op ty) builder fun _ after =>
      after.target.namedSlots ≤ builder.target.namedSlots := by
  refine returns_emitTemp fun cursor _ _ => ?_
  have grows : ∀ block : Block,
      (block.append ⟨.temp builder.nextTemp, ty, op⟩).namedSlots ≤ block.namedSlots + 0 := by
    intro block
    rw [Block.namedSlots, Function.insts_append, List.countP_append]
    exact Nat.le_refl _
  exact Module.namedSlots_modifyBlock_le _ _ grows

theorem namedSlots_alloca (ty : Ty) (variableName : Option String) :
    Returns (alloca ty variableName) builder fun _ after =>
      after.target.namedSlots ≤ builder.target.namedSlots + 1 := by
  refine returns_alloca fun func name start _ named => ?_
  have grows : ∀ block : Block, (block.insert start.slotCount
      ⟨name, .ptr ty true, .alloca ty⟩).namedSlots ≤ block.namedSlots + 1 := by
    intro block
    unfold Block.namedSlots
    rw [Function.insts_insert, List.countP_append, List.countP_cons, ← Nat.add_assoc,
      ← List.countP_append, List.take_append_drop]
    split <;> omega
  have entered := builder.target.namedSlots_withEntry_le func
  have inserted : ((builder.target.modifyFunction func Function.withEntry).modifyBlock func
      Function.entryId _).namedSlots ≤ _ :=
    Module.namedSlots_modifyBlock_le _ _ grows
  show ((start.target.modifyFunction func _).modifyBlock ..).namedSlots ≤ _
  rw [named.target]
  omega

theorem namedSlots_store (address value : Value) :
    Returns (store address value) builder fun _ after =>
      after.target.namedSlots ≤ builder.target.namedSlots := by
  refine returns_store_steps (Nat.le_refl _)
    (fun fewer _ => (namedSlots_emitTemp _ _).mono fun _ _ fewer' => fewer'.trans fewer)
    (fun fewer => returns_declare fun _ _ declared => ?_) fun {cursor position _} _ => ?_
  · rw [Module.namedSlots_declareFunction declared]
    exact fewer
  · have grows : ∀ block : Block, (block.remove position).namedSlots ≤ block.namedSlots + 0 := by
      intro block
      unfold Block.namedSlots
      rw [Function.insts_remove]
      exact (List.eraseIdx_sublist _ _).countP_le
    exact Module.namedSlots_modifyBlock_le _ _ grows

end Build

/-! ### Bindings -/

/-- At most one slot with a name is added. -/
def AtMostOneSlot (before after : Context) : Prop :=
  after.builder.target.namedSlots ≤ before.builder.target.namedSlots + 1

instance (before after : Context) : Decidable (AtMostOneSlot before after) :=
  inferInstanceAs (Decidable (_ ≤ _))

theorem namedSlots_lowerType (source : Source) (ty : TypeId) (context : Context) :
    Returns (lowerType source ty) context fun _ after =>
      after.builder.target.namedSlots = context.builder.target.namedSlots := by
  refine returns_mapping fun _ after returned => ?_
  have only := (ensures_mapTypeWithin source _ ty _).of_ok returned
  show after.target.namedSlots = _
  unfold Module.namedSlots
  rw [only.functions]

theorem atMostOneSlot_bindSlot (walk : Walk) (name : Name) (mutable : Bool) (ty : TypeId)
    (init : Option ExprId) (value : Option Value) (context : Context) :
    Returns (bindSlot walk name mutable ty init value) context fun _ after =>
      AtMostOneSlot context after := by
  have typed : Returns (slotType walk ty init) context fun _ after => after = context := by
    unfold slotType Walk.typeOf Walk.node
    split
    · split
      · rw [returns_bind]
        split
        · exact returns_pure.2 (returns_pure.2 rfl)
        · exact fun _ _ impossible => by cases impossible
      · exact returns_pure.2 rfl
    · exact returns_pure.2 rfl
  unfold bindSlot
  rw [returns_bind]
  refine typed.mono ?_
  rintro ty context rfl
  rw [returns_bind]
  refine (namedSlots_lowerType walk.toSource ty context).mono fun found first same => ?_
  rw [returns_bind]
  refine returns_build ((Build.namedSlots_alloca found _).mono fun address second one => ?_)
  rw [same] at one
  cases value with
  | none => exact returns_modify.2 one
  | some value =>
    dsimp only
    rw [returns_bind]
    refine returns_build ((Build.namedSlots_store address value).mono fun _ third fewer => ?_)
    exact returns_modify.2 (Nat.le_trans fewer one)

theorem atMostOneSlot_bindParam (source : Source) (taken : List Name) (param : Tree.Param)
    (value : Value) (context : Context) :
    Returns (bindParam source taken param value) context fun _ after =>
      AtMostOneSlot context after := by
  unfold bindParam
  split
  · unfold spill
    rw [returns_bind, returns_bind]
    refine returns_build ((Build.namedSlots_alloca _ _).mono fun address first one => ?_)
    rw [returns_bind]
    refine returns_build ((Build.namedSlots_store address value).mono fun _ second fewer => ?_)
    exact returns_pure.2 (returns_modify.2 (Nat.le_trans fewer one))
  · exact returns_modify.2 (Nat.le_succ _)

end TreeLowering.Lowering
