/-
This file proves that a store which becomes a copy does what the plain store would have done. The
load is moved behind the instructions that follow it, up to the call; none of them writes memory or
reads what was loaded. This needs more of a block than names that differ. The address that was
loaded from must not be set behind the load, nor be the first temporary that the copy takes.
-/

import Mathlib
import TreeLowering.Proofs.Flow.Copy
import TreeLowering.Proofs.Machine.Frame
import TreeLowering.Proofs.Regime.Returned

namespace TreeLowering.Ir

/-- The routine called `symbol` reads bytes at its second argument and then writes them at its
first; the third is their number. -/
def World.Copies (world : World) (symbol : String) : Prop :=
  ∀ destination origin (len : BitVec 64) store, ∃ result,
    world.call (world.address symbol)
      [.address destination, .address origin, .word 64 len] store =
        some (result, store.write destination (store.read origin len.toNat))

end TreeLowering.Ir

namespace TreeLowering.Lowering

open TreeLowering.Ir

/-- The block at a position of the module under construction. -/
def Builder.block? (builder : Builder) (cursor : Cursor) : Option Block := do
  let function ← builder.target.function? cursor.func
  function.block? cursor.block

/-! ### What the builder does -/

/-- What is known of a builder while it rewrites a block: its instructions, and what new
instructions are made from. -/
structure Rewriting (start : Builder) (cursor : Cursor) (insts : List Instruction) (taken : Nat)
    (builder : Builder) : Prop where
  positioned : builder.cursor = some cursor
  block : ∃ block, builder.block? cursor = some block ∧ block.insts.toList = insts
  temps : builder.nextTemp = start.nextTemp + taken
  types : builder.target.types = start.target.types
  options : builder.options = start.options

namespace Rewriting

variable {start builder : Builder} {cursor : Cursor} {insts : List Instruction} {taken : Nat}

/-- The block was changed, and nothing else. -/
theorem modify (rewriting : Rewriting start cursor insts taken builder) {change : Block → Block}
    {insts' : List Instruction}
    (changed : ∀ block : Block, block.insts.toList = insts → (change block).insts.toList = insts') :
    Rewriting start cursor insts' taken { builder with
      target := builder.target.modifyBlock cursor.func cursor.block change } := by
  obtain ⟨block, found, same⟩ := rewriting.block
  obtain ⟨function, stored, inside⟩ := Option.bind_eq_some_iff.1 found
  refine ⟨rewriting.positioned, ⟨change block, ?_, changed block same⟩, rewriting.temps,
    rewriting.types, rewriting.options⟩
  rw [Builder.block?]
  change ((builder.target.modifyFunction cursor.func fun function =>
    function.modifyBlock cursor.block change).function? cursor.func).bind (·.block? cursor.block) = _
  rw [Module.function?_modifyFunction, if_pos rfl, stored]
  change (function.modifyBlock cursor.block change).block? cursor.block = _
  rw [Function.block?_modifyBlock, if_pos rfl, inside, Option.map_some]

theorem removeAt (rewriting : Rewriting start cursor insts taken builder) (position : Nat) :
    Returns (Build.removeAt cursor.func cursor.block position) builder fun _ after =>
      Rewriting start cursor (insts.eraseIdx position) taken after := by
  unfold Build.removeAt
  rw [returns_bind]
  refine Build.returns_ask fun block _ => ?_
  rw [returns_bind, Build.change, returns_modify, returns_pure]
  refine rewriting.modify fun block same => ?_
  rw [Block.remove, Array.toList_eraseIdxIfInBounds, same]

theorem emitTemp (rewriting : Rewriting start cursor insts taken builder) (op : Operation)
    (ty : Ty) :
    Returns (Build.emitTemp op ty) builder fun value after =>
      value = .reg (.temp (start.nextTemp + taken)) ty ∧ Rewriting start cursor
        (insts ++ [⟨.temp (start.nextTemp + taken), ty, op⟩]) (taken + 1) after := by
  simp only [Build.emitTemp, Build.freshName, Build.append, Build.insertionPoint, Build.appendAt,
    returns_bind, returns_get, returns_modify, returns_pure, rewriting.positioned, rewriting.temps]
  refine Build.returns_ask fun _ _ => ?_
  rw [Build.change, returns_modify]
  have next : Rewriting start cursor insts (taken + 1)
      { builder with cursor := some cursor, nextTemp := start.nextTemp + taken + 1 } :=
    ⟨rfl, rewriting.block, rfl, rewriting.types, rewriting.options⟩
  refine ⟨rfl, next.modify fun block same => ?_⟩
  rw [Block.append, Array.toList_push, same]

theorem copyRoutine (rewriting : Rewriting start cursor insts taken builder) :
    Returns Build.copyRoutine builder fun value after =>
      (∃ signature, value = .global start.options.copySymbol signature) ∧
        Rewriting start cursor insts taken after := by
  unfold Build.copyRoutine
  rw [returns_bind, returns_get, returns_bind]
  intro func after declared
  unfold Build.declare at declared
  split at declared <;> cases declared
  next target found =>
  obtain ⟨declares, function, stored, named⟩ := Module.declareFunction_spec found
  refine Build.returns_ask fun value asked => ⟨⟨function.signature, ?_⟩, ?_⟩
  · rw [Module.functionRef_of_found stored] at asked
    cases asked
    rw [named, rewriting.options]
  · obtain ⟨block, inside, same⟩ := rewriting.block
    obtain ⟨function', stored', inside⟩ := Option.bind_eq_some_iff.1 inside
    refine ⟨rewriting.positioned, ⟨block, ?_, same⟩, rewriting.temps, ?_, rewriting.options⟩
    · exact Option.bind_eq_some_iff.2 ⟨function', declares.kept _ _ stored', inside⟩
    · rw [← rewriting.types]
      exact (Module.declareFunction_elsewhere found).1

end Rewriting

/-- The instructions that copy `size` bytes. -/
def copyCode (number : Nat) (routine address origin : Value) (size : Nat) : List Instruction :=
  [⟨.temp number, .ptr .u8 true, .cast .bitcast address⟩,
    ⟨.temp (number + 1), .ptr .u8 false, .cast .bitcast origin⟩,
    ⟨.temp (number + 2), .unit, .call routine [.reg (.temp number) (.ptr .u8 true),
      .reg (.temp (number + 1)) (.ptr .u8 false), .int size .usize]⟩]

/-- A store that becomes a copy drops the load and calls the copy routine. -/
theorem returns_store {builder : Builder} {cursor : Cursor} {position : Nat}
    {address value origin : Value} {block : Block}
    (source : builder.copySource? value = .ok (some (cursor, position, origin)))
    (positioned : builder.cursor = some cursor) (found : builder.block? cursor = some block) :
    Returns (Build.store address value) builder fun _ after => ∃ signature size,
      builder.target.sizeOf value.ty = .ok size ∧
        Rewriting builder cursor (block.insts.toList.eraseIdx position ++
          copyCode builder.nextTemp (.global builder.options.copySymbol signature) address origin
            size.toNat) 3 after := by
  have start : Rewriting builder cursor block.insts.toList 0 builder :=
    ⟨positioned, ⟨block, found, rfl⟩, rfl, rfl, rfl⟩
  unfold Build.store
  rw [returns_bind]
  refine Build.returns_measure fun behind source' => ?_
  cases source.symm.trans source'
  simp only
  rw [returns_bind]
  refine (start.removeAt position).mono fun _ second rewriting₂ => ?_
  unfold Build.copyAggregate
  rw [returns_bind]
  refine Build.returns_measure fun size sized => ?_
  rw [sizeOf_of_types rewriting₂.types] at sized
  rw [returns_bind]
  refine rewriting₂.copyRoutine.mono fun routine third ⟨⟨signature, called⟩, rewriting₃⟩ => ?_
  subst called
  rw [returns_bind]
  refine (rewriting₃.emitTemp _ _).mono fun first fourth ⟨same, rewriting₄⟩ => ?_
  subst same
  rw [returns_bind]
  refine (rewriting₄.emitTemp _ _).mono fun second fifth ⟨same, rewriting₅⟩ => ?_
  subst same
  rw [returns_bind]
  refine (rewriting₅.emitTemp _ _).mono fun _ last ⟨_, rewriting₆⟩ => ?_
  rw [returns_pure]
  rw [List.append_assoc, List.append_assoc] at rewriting₆
  exact ⟨signature, size, sized, rewriting₆⟩

/-! ### What the copy does -/

/-- Reading an operand as an address does not change what it is. -/
theorem operand?_of_address? {setting : Setting} {regs : Registers} {value : Value}
    {found : Address} (known : setting.address? regs value = some found) :
    setting.operand? regs value = some (.address found) := by
  unfold Setting.address? at known
  split at known <;> cases known
  assumption

/-- An address is the same behind a pointer of another type. -/
theorem execute?_bitcast {setting : Setting} {previous : Option BlockId} {name : ValueName}
    {mutable : Bool} {value : Value} {state : State} {found : Address}
    (known : setting.address? state.regs value = some found) :
    setting.execute? previous ⟨name, .ptr .u8 mutable, .cast .bitcast value⟩ state =
      some (state.set name (.address found) state.store) := by
  refine Setting.execute?_eq_some_iff.2 ⟨.address found, state.store, ?_, rfl⟩
  simp only [Setting.compute?, operand?_of_address? known]
  rfl

/-- The call reads what its arguments point at and writes it. -/
theorem execute?_copyCall {setting : Setting} {previous : Option BlockId} {symbol : String}
    {signature : Ty} {name : ValueName} {target source : Value} {size : UInt64} {state : State}
    {destination place : Address} (copies : setting.world.Copies symbol)
    (writes : setting.operand? state.regs target = some (.address destination))
    (reads : setting.operand? state.regs source = some (.address place)) :
    ∃ result, setting.execute? previous ⟨name, .unit,
        .call (.global symbol signature) [target, source, .int size.toNat .usize]⟩ state =
      some (state.set name result
        (state.store.write destination (state.store.read place size.toNat))) := by
  obtain ⟨result, called⟩ := copies destination place (BitVec.ofNat 64 size.toNat) state.store
  have length : (BitVec.ofNat 64 size.toNat).toNat = size.toNat :=
    BitVec.toNat_ofNat _ _ ▸ Nat.mod_eq_of_lt size.toNat_lt
  rw [length] at called
  have bytes : setting.operand? state.regs (.int size.toNat .usize) =
      some (.word 64 (BitVec.ofNat 64 size.toNat)) :=
    congrArg (fun bits => some (Datum.word 64 bits)) (BitVec.ofInt_natCast 64 size.toNat)
  have args : [target, source, .int size.toNat .usize].mapM (setting.operand? state.regs) =
      some [.address destination, .address place, .word 64 (BitVec.ofNat 64 size.toNat)] := by
    simp only [List.mapM_cons, List.mapM_nil, writes, reads, bytes, Option.bind_eq_bind,
      Option.bind_some, Option.pure_def]
  have callee : setting.address? state.regs (.global symbol signature) =
    some (setting.world.address symbol) := rfl
  refine ⟨result, Setting.execute?_eq_some_iff.2 ⟨result, _, ?_, rfl⟩⟩
  simp only [Setting.compute?, callee, args, Option.bind_eq_bind, Option.bind_some]
  exact called

/-- Running the copy writes the bytes at `origin` to `address`, whatever else is in between. -/
theorem run?_copyCode {setting : Setting} {previous : Option BlockId} {symbol : String}
    {signature : Ty} {number : Nat} {address origin : Value} {size : UInt64} {state : State}
    {destination place : Address} (copies : setting.world.Copies symbol)
    (writes : setting.address? state.regs address = some destination)
    (reads : setting.address? state.regs origin = some place)
    (new : origin.regName? ≠ some (.temp number)) :
    ∃ done, setting.run? previous
        (copyCode number (.global symbol signature) address origin size.toNat) state = some done ∧
      done.store = state.store.write destination (state.store.read place size.toNat) ∧
      ∀ name, (∀ offset < 3, name ≠ .temp (number + offset)) → done.regs name = state.regs name := by
  let first := state.set (.temp number) (.address destination) state.store
  let second := first.set (.temp (number + 1)) (.address place) state.store
  have kept : setting.operand? first.regs origin = setting.operand? state.regs origin :=
    Setting.operand?_set new
  have reads' : setting.address? first.regs origin = some place := by
    rw [Setting.address?, kept]
    exact reads
  have older : ValueName.temp number ≠ .temp (number + 1) := fun same =>
    Nat.ne_of_lt (Nat.lt_succ_self number) (ValueName.temp.inj same)
  have target : second.regs (.temp number) = some (.address destination) := by
    simp only [second, first, State.set, if_neg older, if_true]
  have source : second.regs (.temp (number + 1)) = some (.address place) := if_pos rfl
  obtain ⟨result, called⟩ : ∃ result, setting.execute? previous ⟨.temp (number + 2), .unit,
      .call (.global symbol signature) [.reg (.temp number) (.ptr .u8 true),
        .reg (.temp (number + 1)) (.ptr .u8 false), .int size.toNat .usize]⟩ second =
      some (second.set (.temp (number + 2)) result
        (state.store.write destination (state.store.read place size.toNat))) :=
    execute?_copyCall copies target source
  refine ⟨_, Setting.run?_cons.2 ⟨first, execute?_bitcast writes, Setting.run?_cons.2 ⟨second,
    execute?_bitcast reads', Setting.run?_cons.2 ⟨_, called, rfl⟩⟩⟩, rfl, fun name outside => ?_⟩
  have apart₁ := outside 0 (by decide)
  have apart₂ := outside 1 (by decide)
  have apart₃ := outside 2 (by decide)
  simp only [second, first, State.set, if_neg apart₃, if_neg apart₂]
  exact if_neg apart₁

/-! ### Stores that become copies -/

/-- A store that becomes a copy: the cursor is in `block`, the instructions of the function have
different names, and the value is the result of one of them. -/
structure Elision (builder after : Builder) (cursor : Cursor) (function : Function) (block : Block)
    (address value : Value) : Prop where
  positioned : builder.cursor = some cursor
  stored : builder.target.function? cursor.func = some function
  found : function.block? cursor.block = some block
  distinct : ((function.blocks.toList.flatMap fun block => block.insts.toList).map
    Instruction.name).Nodup
  result : ∃ other ∈ function.blocks, ∃ inst ∈ other.insts, inst.result = value
  elides : ∃ found, builder.copySource? value = .ok (some found)
  returned : Build.store address value builder = .ok () after

/-- The block does what it did before with a plain store at its end: memory ends up the same, and so
do all registers but that of the value and the new ones. It ends with the call, which is given the
size of the value. -/
def KeepsMeaning (builder after : Builder) (cursor : Cursor) (block : Block)
    (address value : Value) : Prop :=
  ∃ block', after.block? cursor = some block' ∧
    (∃ name ty callee destination origin size, builder.target.sizeOf value.ty = .ok size ∧
      block'.insts.toList.getLast? =
        some ⟨name, ty, .call callee [destination, origin, .int size.toNat .usize]⟩) ∧
    ∀ world args previous state middle done, world.Copies builder.options.copySymbol →
      Setting.run? ⟨world, builder.target, args⟩ previous block.insts.toList state = some middle →
      Setting.execute? ⟨world, builder.target, args⟩ previous
        ⟨.temp builder.nextTemp, .unit, .store address value⟩ middle = some done →
      ∃ done', Setting.run? ⟨world, after.target, args⟩ previous block'.insts.toList state =
          some done' ∧
        done'.store = done.store ∧
        ∀ name, value.regName? ≠ some name →
          (∀ offset < 3, name ≠ .temp (builder.nextTemp + offset)) →
          done'.regs name = done.regs name

/-- Where a load sets the register, the address it reads is set neither by the load nor behind it,
and is not the temporary of that number. -/
def LoadsFrom (insts : List Instruction) (name : ValueName) (number : Nat) : Prop :=
  ∀ earlier ty origin later, insts = earlier ++ ⟨name, ty, .load origin⟩ :: later →
    (∀ other ∈ ⟨name, ty, .load origin⟩ :: later, origin.regName? ≠ some other.name) ∧
      origin.regName? ≠ some (.temp number)

section Operations

variable {setting : Setting} {previous : Option BlockId}

/-- Loading an aggregate takes its bytes as they are. -/
theorem compute?_load {ty : Ty} {origin : Value} {state : State} {datum : Datum} {store : Store}
    {size : UInt64} (aggregate : ty.isAggregate = true)
    (sized : setting.target.sizeOf ty = .ok size)
    (computed : setting.compute? previous ty (.load origin) state = some (datum, store)) :
    ∃ place, setting.address? state.regs origin = some place ∧
      datum = .block (state.store.read place size.toNat) ∧ store = state.store := by
  have known : setting.target.size? ty = some size.toNat := by rw [Module.size?, sized]; rfl
  simp only [Setting.compute?, known, Option.bind_eq_bind, Option.bind_eq_some_iff,
    Option.bind_some, Option.map_eq_some_iff, Prod.mk.injEq] at computed
  obtain ⟨place, reads, found, decoded, rfl, rfl⟩ := computed
  refine ⟨place, reads, ?_, rfl⟩
  cases ty <;> cases aggregate <;> exact (Option.some.inj decoded).symm

theorem compute?_store {ty ty' : Ty} {address : Value} {name : ValueName} {state : State}
    {datum content : Datum} {store : Store} (set : state.regs name = some content)
    (computed : setting.compute? previous ty (.store address (.reg name ty')) state =
      some (datum, store)) :
    ∃ destination, setting.address? state.regs address = some destination ∧
      datum = .word 0 0 ∧ store = state.store.write destination content.encode := by
  simp only [Setting.compute?, Setting.operand?, set, Option.bind_eq_bind, Option.bind_some,
    Option.bind_eq_some_iff, Option.pure_def, Option.some.injEq, Prod.mk.injEq] at computed
  obtain ⟨destination, writes, rfl, rfl⟩ := computed
  exact ⟨destination, writes, rfl, rfl⟩

theorem address?_of_unset {regs regs' : Registers} {value : Value}
    (same : ∀ name, value.regName? = some name → regs' name = regs name) :
    setting.address? regs' value = setting.address? regs value := by
  cases value with
  | reg name ty => rw [Setting.address?, Setting.operand?, same name rfl, Setting.address?,
      Setting.operand?]
  | _ => rfl

end Operations

/-- Behind a load that nothing disturbs, the copy does what the load and a store at the end do. -/
theorem run?_moved {setting : Setting} {previous : Option BlockId} {symbol : String}
    {signature ty : Ty} {name store : ValueName} {number : Nat} {size : UInt64}
    {address origin : Value} {earlier later : List Instruction} {state middle done : State}
    (copies : setting.world.Copies symbol) (aggregate : ty.isAggregate = true)
    (sized : setting.target.sizeOf ty = .ok size)
    (passed : ∀ inst ∈ later,
      inst.name ≠ name ∧ inst.op.hasEffects = false ∧ inst.uses name = false)
    (kept : ∀ other ∈ Instruction.mk name ty (.load origin) :: later,
      origin.regName? ≠ some other.name)
    (new : origin.regName? ≠ some (.temp number))
    (ran : setting.run? previous (earlier ++ ⟨name, ty, .load origin⟩ :: later) state = some middle)
    (executed : setting.execute? previous ⟨store, .unit, .store address (.reg name ty)⟩ middle =
      some done) :
    ∃ done', setting.run? previous (earlier ++ later ++ copyCode number (.global symbol signature)
        address origin size.toNat) state = some done' ∧
      done'.store = done.store ∧ ∀ other, other ≠ name → other ≠ store →
        (∀ offset < 3, other ≠ .temp (number + offset)) → done'.regs other = done.regs other := by
  obtain ⟨before, ran₁, ran⟩ := Setting.run?_append.1 ran
  obtain ⟨loaded, load, ran₂⟩ := Setting.run?_cons.1 ran
  obtain ⟨datum, memory, computed, rfl⟩ := Setting.execute?_eq_some_iff.1 load
  obtain ⟨place, reads, rfl, rfl⟩ := compute?_load aggregate sized computed
  -- without the load, the same instructions run from the state before it
  have forgotten : AgreeExcept name (before.set name (.block (before.store.read place
      size.toNat)) before.store) before :=
    ⟨rfl, fun other differs => (if_neg differs).symm⟩
  obtain ⟨after, ran₃, agree⟩ := forgotten.run? (fun inst member => (passed inst member).2.2) ran₂
  have bytes := Setting.bytes_of_run? (fun inst member => (passed inst member).2.1) ran₂
  have content : middle.regs name =
      some (.block (before.store.read place size.toNat)) := by
    rw [Setting.regs_of_run? (fun inst member => (passed inst member).1) ran₂]
    exact if_pos rfl
  have reads' : setting.address? after.regs origin = some place := by
    rw [← reads]
    refine address?_of_unset (fun found named => ?_)
    exact Setting.regs_of_run? (fun inst member same =>
      kept inst (List.mem_cons_of_mem _ member) (named.trans (congrArg some same.symm))) ran₃
  obtain ⟨_, _, stored, rfl⟩ := Setting.execute?_eq_some_iff.1 executed
  obtain ⟨destination, writes, rfl, rfl⟩ := compute?_store content stored
  have writes' : setting.address? after.regs address = some destination := by
    rw [← writes]
    refine address?_of_unset (fun found named => agree.regs found fun same => ?_)
    -- the address of the store is not the register that holds the aggregate
    subst same
    cases address <;> cases named
    simp only [Setting.address?, Setting.operand?, content] at writes
    cases writes
  obtain ⟨done', ran₄, memory, regs⟩ := run?_copyCode copies writes' reads' new
  refine ⟨done', Setting.run?_append.2 ⟨after, Setting.run?_append.2 ⟨before, ran₁, ran₃⟩, ran₄⟩, ?_,
    fun other differs differs' outside => ?_⟩
  · rw [memory, agree.store]
    change _ = middle.store.write destination _
    rw [Datum.encode, Store.read, bytes]
    rfl
  · rw [regs other outside, agree.regs other differs]
    exact (if_neg differs').symm

/-- In a function whose names differ, only one instruction sets a register. -/
theorem inst_unique {function : Function} (distinct : ((function.blocks.toList.flatMap
      fun block => block.insts.toList).map Instruction.name).Nodup)
    {first second : Block} (member : first ∈ function.blocks) (member' : second ∈ function.blocks)
    {inst inst' : Instruction} (inside : inst ∈ first.insts) (inside' : inst' ∈ second.insts)
    (same : inst.name = inst'.name) : inst = inst' :=
  List.inj_on_of_nodup_map distinct
    (List.mem_flatMap.2 ⟨first, Array.mem_toList_iff.2 member, Array.mem_toList_iff.2 inside⟩)
    (List.mem_flatMap.2 ⟨second, Array.mem_toList_iff.2 member', Array.mem_toList_iff.2 inside'⟩) same

/-- A store that becomes a copy keeps the meaning of its block, when the address of the load it
drops is set neither by the load nor behind it, and is not the next temporary. -/
theorem Elision.keepsMeaning {builder after : Builder} {cursor : Cursor} {function : Function}
    {block : Block} {address value : Value}
    (elision : Elision builder after cursor function block address value)
    (loads : ∀ name, value.regName? = some name →
      LoadsFrom block.insts.toList name builder.nextTemp) :
    KeepsMeaning builder after cursor block address value := by
  obtain ⟨⟨cursor', position, origin⟩, source⟩ := elision.elides
  obtain ⟨name, ty, function', block', rfl, aggregate, _, positioned, stored, found, loaded⟩ :=
    Builder.copySource?_spec source
  cases elision.positioned.symm.trans positioned
  cases elision.stored.symm.trans stored
  cases elision.found.symm.trans found
  have inside : builder.block? cursor = some block :=
    Option.bind_eq_some_iff.2 ⟨function, stored, found⟩
  obtain ⟨signature, size, sized, rewriting⟩ :=
    returns_store source positioned inside () after elision.returned
  obtain ⟨later, ty', earlier, split, length, passed⟩ := Builder.findLoad?_spec loaded
  have split' : block.insts.toList =
      earlier.reverse ++ ⟨name, ty', .load origin⟩ :: later.reverse := by
    rw [← List.reverse_reverse block.insts.toList, split]
    simp
  have load : Instruction.mk name ty' (.load origin) ∈ block.insts := by
    rw [← Array.mem_toList_iff, split']
    simp
  obtain rfl : ty' = ty := by
    obtain ⟨other, member, inst, inside', same⟩ := elision.result
    have equal := inst_unique elision.distinct member (Array.mem_of_getElem? found) inside' load
      (Value.reg.inj same).1
    rw [equal] at same
    exact (Value.reg.inj same).2
  have erased : block.insts.toList.eraseIdx position = earlier.reverse ++ later.reverse := by
    rw [split', ← length, ← List.length_reverse, List.eraseIdx_append_of_length_le (Nat.le_refl _),
      Nat.sub_self, List.eraseIdx_cons_zero]
  obtain ⟨block'', found'', insts⟩ := rewriting.block
  rw [erased] at insts
  obtain ⟨kept, new⟩ := loads name rfl _ _ _ _ split'
  refine ⟨block'', found'', ?_, fun world args previous state middle done copies ran executed => ?_⟩
  · rw [insts, copyCode, List.getLast?_append]
    exact ⟨_, _, _, _, _, size, sized, rfl⟩
  · rw [Setting.run?_of_types rewriting.types, insts]
    rw [split'] at ran
    obtain ⟨done', ran', memory, regs⟩ := @run?_moved ⟨world, builder.target, args⟩ previous
      builder.options.copySymbol signature ty' name (.temp builder.nextTemp) builder.nextTemp size
      address origin _ _ state middle done copies aggregate sized
      (fun inst member => passed inst (List.mem_reverse.1 member)) kept new ran executed
    refine ⟨done', ran', memory, fun other differs outside => regs other ?_ (outside 0 (by decide))
      outside⟩
    exact fun same => differs (congrArg some same.symm)

/-! ### Two blocks -/

/-- Thirty-two bytes. -/
def bytesTy : Ty := .array .u8 32

def bytesPtr : Ty := .ptr bytesTy true

/-- A function with one open block that gets two addresses. -/
def openFunction (insts : List Instruction) : Function where
  name := "f"
  params := [⟨"dst", bytesPtr⟩, ⟨"src", bytesPtr⟩]
  ret := .unit
  blocks := #[⟨⟨0⟩, "entry", insts.toArray, none⟩]

/-- The copy routine as it is declared on first use. -/
def copyDeclaration : Function := .declared "memcpy" Build.copyParams .unit

/-- A module with that function alone. -/
def plainModule (insts : List Instruction) : Module :=
  (Module.empty "main").addFunction (openFunction insts) rfl

/-- A module with that function and the copy routine. -/
def copyingModule (insts : List Instruction) : Module :=
  (plainModule insts).addFunction copyDeclaration rfl

/-- A builder in the only block of the first function. -/
def builderIn (target : Module) (nextTemp : Nat) : Builder :=
  { Builder.start .standard with
    target
    cursor := some ⟨⟨0⟩, ⟨0⟩⟩
    current := some ⟨0⟩
    nextTemp }

/-- Loads what `src` points at, and after that the first byte at `dst`. -/
def lateLoad : List Instruction :=
  [⟨.temp 0, bytesPtr, .const (.param "src" bytesPtr)⟩,
    ⟨.temp 1, bytesTy, .load (.reg (.temp 0) bytesPtr)⟩,
    ⟨.temp 2, .ptr .u8 true, .cast .bitcast (.param "dst" bytesPtr)⟩,
    ⟨.temp 3, .u8, .load (.reg (.temp 2) (.ptr .u8 true))⟩]

/-- `lateLoad` without the first load, and with the copy. -/
def lateCopy : List Instruction :=
  [⟨.temp 0, bytesPtr, .const (.param "src" bytesPtr)⟩,
    ⟨.temp 2, .ptr .u8 true, .cast .bitcast (.param "dst" bytesPtr)⟩,
    ⟨.temp 3, .u8, .load (.reg (.temp 2) (.ptr .u8 true))⟩] ++
    copyCode 4 (.global "memcpy" copyDeclaration.signature) (.param "dst" bytesPtr)
      (.reg (.temp 0) bytesPtr) 32

theorem store_lateLoad :
    Build.store (.param "dst" bytesPtr) (.reg (.temp 1) bytesTy)
        (builderIn (plainModule lateLoad) 4) =
      .ok () (builderIn (copyingModule lateCopy) 7) := by
  cbv

theorem lateLoad_elision :
    Elision (builderIn (plainModule lateLoad) 4) (builderIn (copyingModule lateCopy) 7)
      ⟨⟨0⟩, ⟨0⟩⟩ (openFunction lateLoad) ⟨⟨0⟩, "entry", lateLoad.toArray, none⟩
      (.param "dst" bytesPtr) (.reg (.temp 1) bytesTy) := by
  refine ⟨rfl, rfl, rfl, by decide, ⟨_, Array.mem_singleton.2 rfl,
    ⟨.temp 1, bytesTy, .load (.reg (.temp 0) bytesPtr)⟩, ?_, rfl⟩, ⟨_, rfl⟩, store_lateLoad⟩
  simp [lateLoad]

theorem lateLoad_keepsMeaning :
    KeepsMeaning (builderIn (plainModule lateLoad) 4) (builderIn (copyingModule lateCopy) 7)
      ⟨⟨0⟩, ⟨0⟩⟩ ⟨⟨0⟩, "entry", lateLoad.toArray, none⟩ (.param "dst" bytesPtr)
      (.reg (.temp 1) bytesTy) := by
  refine lateLoad_elision.keepsMeaning fun name named earlier ty origin later split => ?_
  cases named
  rcases earlier with _ | ⟨_, _ | ⟨_, _ | ⟨_, _ | ⟨_, rest⟩⟩⟩⟩
  case cons.nil =>
    cases split
    simp [Value.regName?, builderIn]
  all_goals simp [lateLoad] at split

/-- Loads what a register points at that is only set afterwards. -/
def earlyLoad : List Instruction :=
  [⟨.temp 0, bytesTy, .load (.reg (.temp 1) bytesPtr)⟩,
    ⟨.temp 1, bytesPtr, .const (.param "src" bytesPtr)⟩]

/-- `earlyLoad` without the load, and with the copy. -/
def earlyCopy : List Instruction :=
  [⟨.temp 1, bytesPtr, .const (.param "src" bytesPtr)⟩] ++
    copyCode 2 (.global "memcpy" copyDeclaration.signature) (.param "dst" bytesPtr)
      (.reg (.temp 1) bytesPtr) 32

theorem store_earlyLoad :
    Build.store (.param "dst" bytesPtr) (.reg (.temp 0) bytesTy)
        (builderIn (plainModule earlyLoad) 2) =
      .ok () (builderIn (copyingModule earlyCopy) 5) := by
  cbv

/-- A world in which every call copies. -/
def copyingWorld : World where
  address _ := ⟨0, 0⟩
  call _ args store :=
    match args with
    | [.address destination, .address origin, .word _ len] =>
      some (.word 0 0, store.write destination (store.read origin len.toNat))
    | _ => none

/-- Every byte is the number of its region, and register one points into the third. -/
def numberedState : State :=
  ⟨fun name => if name = .temp 1 then some (.address ⟨3, 0⟩) else none,
    ⟨fun address => .raw (UInt8.ofNat address.region), 4⟩⟩

/-- The arguments point into the first two regions. -/
def numberedArgs : List (String × Datum) := [("dst", .address ⟨1, 0⟩), ("src", .address ⟨2, 0⟩)]

/-- Names that differ are not enough: the load may read a register that is set behind it. Then the
block copies from where the register points in the end. -/
theorem earlyLoad_changes_meaning :
    Elision (builderIn (plainModule earlyLoad) 2)
        (builderIn (copyingModule earlyCopy) 5) ⟨⟨0⟩, ⟨0⟩⟩
        (openFunction earlyLoad) ⟨⟨0⟩, "entry", earlyLoad.toArray, none⟩ (.param "dst" bytesPtr)
        (.reg (.temp 0) bytesTy) ∧
      ¬ KeepsMeaning (builderIn (plainModule earlyLoad) 2)
        (builderIn (copyingModule earlyCopy) 5) ⟨⟨0⟩, ⟨0⟩⟩
        ⟨⟨0⟩, "entry", earlyLoad.toArray, none⟩ (.param "dst" bytesPtr)
        (.reg (.temp 0) bytesTy) := by
  constructor
  · refine ⟨rfl, rfl, rfl, by decide, ⟨_, Array.mem_singleton.2 rfl,
      ⟨.temp 0, bytesTy, .load (.reg (.temp 1) bytesPtr)⟩, ?_, rfl⟩, ⟨_, rfl⟩, store_earlyLoad⟩
    simp [earlyLoad]
  · rintro ⟨block', found, _, keeps⟩
    cases found
    have plain : ((Setting.run? ⟨copyingWorld, (builderIn (plainModule earlyLoad) 2).target,
        numberedArgs⟩ none earlyLoad numberedState).bind (Setting.execute? ⟨copyingWorld,
          (builderIn (plainModule earlyLoad) 2).target, numberedArgs⟩ none
          ⟨.temp 2, .unit, .store (.param "dst" bytesPtr) (.reg (.temp 0) bytesTy)⟩)).map
            (fun done => done.store.bytes ⟨1, 0⟩) = some (.raw 3) := by
      decide +kernel
    have copied : (Setting.run? ⟨copyingWorld,
        (builderIn (copyingModule earlyCopy) 5).target, numberedArgs⟩ none
          earlyCopy numberedState).map (fun done => done.store.bytes ⟨1, 0⟩) = some (.raw 2) := by
      decide +kernel
    obtain ⟨done, executed, byte⟩ := Option.map_eq_some_iff.1 plain
    obtain ⟨middle, ran, executed⟩ := Option.bind_eq_some_iff.1 executed
    obtain ⟨done', ran', memory, _⟩ := keeps copyingWorld numberedArgs none numberedState middle done
      (fun _ _ _ _ => ⟨_, rfl⟩) ran executed
    obtain ⟨done'', ran'', byte'⟩ := Option.map_eq_some_iff.1 copied
    cases ran'.symm.trans ran''
    rw [memory, byte] at byte'
    cases byte'

end TreeLowering.Lowering
