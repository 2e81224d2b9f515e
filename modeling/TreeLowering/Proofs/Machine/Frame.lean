/-
This file proves what a run of instructions depends on and what it changes. An instruction reads its
operands and the store, and sets one register; only stores and calls change memory. So a register
that nobody reads can be forgotten, and one that nobody sets keeps its datum.
-/

import TreeLowering.Proofs.Machine.Step
import TreeLowering.Proofs.Tables.Module
import Mathlib.Data.List.Basic
import Mathlib.Tactic.SplitIfs

namespace TreeLowering.Ir

variable {setting : Setting} {previous : Option BlockId}

theorem mapM_congr_of_mem {α β : Type} {first second : α → Option β} {items : List α}
    (same : ∀ item ∈ items, first item = second item) : items.mapM first = items.mapM second := by
  induction items with
  | nil => rfl
  | cons item rest inductionHypothesis =>
    rw [List.mapM_cons, List.mapM_cons, same item List.mem_cons_self,
      inductionHypothesis fun other member => same other (List.mem_cons_of_mem _ member)]

/-! ### Layouts -/

section Layouts

variable {target target' : Module} (types : target'.types = target.types)

include types

/-- The layout of a type depends on the struct types of the module and on nothing else. -/
theorem layoutWithin_of_types (depth : Nat) (ty : Ty) :
    target'.layoutWithin depth ty = target.layoutWithin depth ty := by
  induction depth generalizing ty with
  | zero => rfl
  | succ depth inductionHypothesis =>
    cases ty with
    | array elem len => simp only [Module.layoutWithin, inductionHypothesis]
    | struct name =>
      simp only [Module.layoutWithin, Module.structFields?_of_types types, inductionHypothesis]
    | _ => rfl

theorem layout_of_types (ty : Ty) : target'.layout ty = target.layout ty :=
  layoutWithin_of_types types _ ty

theorem sizeOf_of_types (ty : Ty) : target'.sizeOf ty = target.sizeOf ty := by
  rw [Module.sizeOf, layout_of_types types, Module.sizeOf]

theorem size?_of_types (ty : Ty) : target'.size? ty = target.size? ty := by
  rw [Module.size?, sizeOf_of_types types, Module.size?]

theorem offset?_of_types (ty : Ty) (indices : List Int) :
    target'.offset? ty indices = target.offset? ty indices := by
  induction indices generalizing ty with
  | nil => rfl
  | cons index rest inductionHypothesis =>
    have step : target'.stepInto? ty index = target.stepInto? ty index := by
      cases ty <;> simp only [Module.stepInto?, Module.structFields?_of_types types, Module.fieldOffset,
        layout_of_types types, size?_of_types types, Module.alignOf]
    simp only [Module.offset?, step, inductionHypothesis]

end Layouts

namespace Setting

/-- What an operation computes depends on its operands and the store. -/
theorem compute?_congr {ty : Ty} {op : Operation} {state state' : State}
    (store : state'.store = state.store)
    (same : ∀ value ∈ op.operands,
      setting.operand? state'.regs value = setting.operand? state.regs value) :
    setting.compute? previous ty op state' = setting.compute? previous ty op state := by
  have address : ∀ value ∈ op.operands,
      setting.address? state'.regs value = setting.address? state.regs value := fun value member => by
    rw [address?, same value member, address?]
  cases op with
  | const value => simp only [compute?, store, same value (by simp [Operation.operands])]
  | alloca allocated => simp only [compute?, store]
  | load value => simp only [compute?, store, address value (by simp [Operation.operands])]
  | store found value =>
    simp only [compute?, store, address found (by simp [Operation.operands]),
      same value (by simp [Operation.operands])]
  | binary op left right =>
    simp only [compute?, store, same left (by simp [Operation.operands]),
      same right (by simp [Operation.operands])]
  | unary op operand => simp only [compute?, store, same operand (by simp [Operation.operands])]
  | cmp pred left right =>
    simp only [compute?, store, same left (by simp [Operation.operands]),
      same right (by simp [Operation.operands])]
  | call callee args =>
    simp only [compute?, store, address callee (by simp [Operation.operands])]
    rw [mapM_congr_of_mem fun arg member => same arg (by simp [Operation.operands, member])]
  | gep baseTy base indices =>
    simp only [compute?, store, address base (by simp [Operation.operands])]
    rw [mapM_congr_of_mem fun index member => by
      rw [same index (by simp [Operation.operands, member])]]
  | phi incoming =>
    simp only [compute?, store]
    cases previous with
    | none => rfl
    | some source =>
      cases found : incoming.find? fun arm => arm.2 = source with
      | none => simp only [Option.bind_eq_bind, Option.bind_some, found, Option.bind_none]
      | some arm =>
        have member : arm.1 ∈ (Operation.phi incoming).operands :=
          List.mem_map_of_mem (List.mem_of_find?_eq_some found)
        simp only [Option.bind_eq_bind, Option.bind_some, found, same arm.1 member]
  | cast kind value => simp only [compute?, store, same value (by simp [Operation.operands])]

theorem compute?_of_types {world : World} {target target' : Module}
    {args : List (String × Datum)} (types : target'.types = target.types) (ty : Ty)
    (op : Operation) (state : State) :
    compute? ⟨world, target', args⟩ previous ty op state =
      compute? ⟨world, target, args⟩ previous ty op state := by
  have operand : operand? ⟨world, target', args⟩ state.regs =
      operand? ⟨world, target, args⟩ state.regs := funext fun value => by
    cases value <;> rfl
  have address : ∀ value, address? ⟨world, target', args⟩ state.regs value =
      address? ⟨world, target, args⟩ state.regs value := fun value => by
    rw [address?, operand, address?]
  cases op <;> simp only [compute?, operand, address, size?_of_types types,
    offset?_of_types types]

/-- A run depends on the struct types of the module and on nothing else of it. -/
theorem run?_of_types {world : World} {target target' : Module} {args : List (String × Datum)}
    (types : target'.types = target.types) (insts : List Instruction) (state : State) :
    run? ⟨world, target', args⟩ previous insts state =
      run? ⟨world, target, args⟩ previous insts state := by
  induction insts generalizing state with
  | nil => rfl
  | cons inst rest inductionHypothesis =>
    simp only [run?, execute?, compute?_of_types types, inductionHypothesis]

/-- Only stores and calls change memory. -/
theorem bytes_of_compute? {ty : Ty} {op : Operation} {state : State} {datum : Datum}
    {store : Store} (quiet : op.hasEffects = false)
    (computed : setting.compute? previous ty op state = some (datum, store)) :
    store.bytes = state.store.bytes := by
  cases op with
  | store found value => cases quiet
  | call callee args => cases quiet
  | alloca allocated =>
    cases computed
    rfl
  | gep baseTy base indices =>
    simp only [compute?, Option.bind_eq_bind, Option.bind_eq_some_iff] at computed
    obtain ⟨found, _, indices', _, computed⟩ := computed
    split at computed
    · simp only [Option.map_some, Option.some.injEq, Prod.mk.injEq] at computed
      rw [← computed.2]
    · simp only [Option.bind_eq_some_iff, Option.map_some, Option.some.injEq,
        Prod.mk.injEq] at computed
      obtain ⟨size, _, further, _, _, rfl⟩ := computed
      rfl
  | _ =>
    simp only [compute?, Option.bind_eq_bind, Option.bind_eq_some_iff, Option.map_eq_some_iff,
      Prod.mk.injEq] at computed
    grind

theorem operand?_set {regs : Registers} {name : ValueName} {value : Value} {datum : Option Datum}
    (differs : value.regName? ≠ some name) :
    setting.operand? (fun found => if found = name then datum else regs found) value =
      setting.operand? regs value := by
  cases value with
  | reg found ty =>
    have other : found ≠ name := fun same => differs (congrArg some same)
    rw [operand?, operand?, if_neg other]
  | _ => rfl

theorem execute?_eq_some_iff {inst : Instruction} {state after : State} :
    setting.execute? previous inst state = some after ↔ ∃ datum store,
      setting.compute? previous inst.ty inst.op state = some (datum, store) ∧
        after = state.set inst.name datum store := by
  rw [execute?, Option.map_eq_some_iff]
  constructor
  · rintro ⟨⟨datum, store⟩, computed, rfl⟩
    exact ⟨datum, store, computed, rfl⟩
  · rintro ⟨datum, store, computed, rfl⟩
    exact ⟨(datum, store), computed, rfl⟩

theorem run?_cons {inst : Instruction} {rest : List Instruction} {state after : State} :
    setting.run? previous (inst :: rest) state = some after ↔ ∃ middle,
      setting.execute? previous inst state = some middle ∧
        setting.run? previous rest middle = some after := by
  rw [run?, Option.bind_eq_bind, Option.bind_eq_some_iff]

/-- Two runs in a row. -/
theorem run?_append {first second : List Instruction} {state after : State} :
    setting.run? previous (first ++ second) state = some after ↔ ∃ middle,
      setting.run? previous first state = some middle ∧
        setting.run? previous second middle = some after := by
  induction first generalizing state with
  | nil => simp [run?]
  | cons inst rest inductionHypothesis =>
    simp only [List.cons_append, run?_cons, inductionHypothesis]
    constructor
    · rintro ⟨next, executed, middle, ran, ran'⟩
      exact ⟨middle, ⟨next, executed, ran⟩, ran'⟩
    · rintro ⟨middle, ⟨next, executed, ran⟩, ran'⟩
      exact ⟨next, executed, middle, ran, ran'⟩

/-- A run without effects leaves memory as it is. -/
theorem bytes_of_run? {insts : List Instruction} {state after : State}
    (quiet : ∀ inst ∈ insts, inst.op.hasEffects = false)
    (ran : setting.run? previous insts state = some after) :
    after.store.bytes = state.store.bytes := by
  induction insts generalizing state with
  | nil =>
    cases ran
    rfl
  | cons inst rest inductionHypothesis =>
    obtain ⟨middle, executed, ran⟩ := run?_cons.1 ran
    obtain ⟨datum, store, computed, rfl⟩ := execute?_eq_some_iff.1 executed
    rw [inductionHypothesis (fun other member => quiet other (List.mem_cons_of_mem _ member)) ran]
    exact bytes_of_compute? (quiet inst List.mem_cons_self) computed

/-- A register that no instruction sets keeps its datum. -/
theorem regs_of_run? {insts : List Instruction} {state after : State} {name : ValueName}
    (unset : ∀ inst ∈ insts, inst.name ≠ name)
    (ran : setting.run? previous insts state = some after) :
    after.regs name = state.regs name := by
  induction insts generalizing state with
  | nil =>
    cases ran
    rfl
  | cons inst rest inductionHypothesis =>
    obtain ⟨middle, executed, ran⟩ := run?_cons.1 ran
    obtain ⟨datum, store, _, rfl⟩ := execute?_eq_some_iff.1 executed
    rw [inductionHypothesis (fun other member => unset other (List.mem_cons_of_mem _ member)) ran]
    exact if_neg (unset inst List.mem_cons_self).symm

end Setting

/-- Two states that differ in one register at most. -/
structure AgreeExcept (name : ValueName) (first second : State) : Prop where
  store : second.store = first.store
  regs : ∀ other, other ≠ name → second.regs other = first.regs other

namespace AgreeExcept

variable {name : ValueName} {first second : State}

theorem operand? (agree : AgreeExcept name first second) {value : Value}
    (differs : value.regName? ≠ some name) :
    setting.operand? second.regs value = setting.operand? first.regs value := by
  cases value with
  | reg found ty => exact agree.regs found fun same => differs (congrArg some same)
  | _ => rfl

theorem set (agree : AgreeExcept name first second) (other : ValueName) (datum : Datum)
    (store : Store) : AgreeExcept name (first.set other datum store) (second.set other datum store) :=
  ⟨rfl, fun found differs => by simp only [State.set, agree.regs found differs]⟩

theorem execute? (agree : AgreeExcept name first second) {inst : Instruction}
    (unread : inst.uses name = false) {after : State}
    (executed : setting.execute? previous inst first = some after) :
    ∃ after', setting.execute? previous inst second = some after' ∧
      AgreeExcept name after after' := by
  obtain ⟨datum, store, computed, rfl⟩ := Setting.execute?_eq_some_iff.1 executed
  refine ⟨second.set inst.name datum store, Setting.execute?_eq_some_iff.2
    ⟨datum, store, ?_, rfl⟩, agree.set inst.name datum store⟩
  rw [← computed]
  refine Setting.compute?_congr agree.store fun value operand => agree.operand? ?_
  simp only [Instruction.uses, List.any_eq_false, beq_iff_eq] at unread
  exact unread value operand

/-- A register that no instruction reads makes no difference. -/
theorem run? (agree : AgreeExcept name first second) {insts : List Instruction}
    (unread : ∀ inst ∈ insts, inst.uses name = false) {after : State}
    (ran : setting.run? previous insts first = some after) :
    ∃ after', setting.run? previous insts second = some after' ∧ AgreeExcept name after after' := by
  induction insts generalizing first second with
  | nil =>
    cases ran
    exact ⟨second, rfl, agree⟩
  | cons inst rest inductionHypothesis =>
    obtain ⟨middle, executed, ran⟩ := Setting.run?_cons.1 ran
    obtain ⟨middle', executed', agree'⟩ := agree.execute? (unread inst List.mem_cons_self) executed
    obtain ⟨after', ran', agree''⟩ := inductionHypothesis agree'
      (fun other member => unread other (List.mem_cons_of_mem _ member)) ran
    exact ⟨after', Setting.run?_cons.2 ⟨middle', executed', ran'⟩, agree''⟩

end AgreeExcept

end TreeLowering.Ir
