/-
This file follows what one call of the expression lowering does to the function it works in. The
call owns the block it starts in and the blocks it makes; other blocks only gain stack slots at the
front of the entry block, and jumps lead to blocks of the call or to the loop around it. All this is
a steady regime, apart from one thing that it leaves open: loads of the first block may be dropped.
-/

import Mathlib.Data.List.Perm.Subperm
import TreeLowering.Proofs.Regime.Expr
import TreeLowering.Proofs.Regime.Returned

namespace TreeLowering.Ir

/-! ### One block -/

/-- How a run of instructions was carried on. Its slots stand at the front, the old ones before the
new ones; then comes what was kept of the rest, and then what was added. -/
structure Carried (unnamed : ValueName → Prop)
    (first second front slots back kept more : List Instruction) : Prop where
  before : first = front ++ back
  now : second = front ++ slots ++ kept ++ more
  rest : kept.Sublist back
  allocas : ∀ inst ∈ front ++ slots, inst.op.isAlloca = true
  fresh : ∀ inst ∈ slots ++ more, unnamed inst.name

namespace Carried

variable {unnamed : ValueName → Prop} {first second front slots back kept more : List Instruction}

theorem start {front back : List Instruction} (split : first = front ++ back)
    (allocas : ∀ inst ∈ front, inst.op.isAlloca = true) :
    Carried unnamed first first front [] back back [] := by
  refine ⟨split, by simpa using split, .refl back, fun inst member => ?_, List.forall_mem_nil _⟩
  rw [List.append_nil] at member
  exact allocas inst member

theorem append (carried : Carried unnamed first second front slots back kept more)
    {inst : Instruction} (new : unnamed inst.name) :
    Carried unnamed first (second ++ [inst]) front slots back kept (more ++ [inst]) := by
  refine ⟨carried.before, ?_, carried.rest, carried.allocas, fun other member => ?_⟩
  · rw [carried.now]
    simp only [List.append_assoc]
  · rw [← List.append_assoc] at member
    rcases List.mem_append.1 member with old | last
    · exact carried.fresh other old
    · rwa [List.mem_singleton.1 last]

/-- A slot goes behind all others. -/
theorem insert (carried : Carried unnamed first second front slots back kept more)
    {inst : Instruction} (new : unnamed inst.name) (slot : inst.op.isAlloca = true) {count : Nat}
    (counted : (front ++ slots).length = count) :
    Carried unnamed first (second.take count ++ inst :: second.drop count) front
      (slots ++ [inst]) back kept more := by
  subst counted
  refine ⟨carried.before, ?_, carried.rest, fun other member => ?_, fun other member => ?_⟩
  · rw [carried.now, List.append_assoc (front ++ slots), List.take_left, List.drop_left]
    simp only [List.append_assoc, List.cons_append, List.nil_append]
  · rw [← List.append_assoc] at member
    rcases List.mem_append.1 member with old | last
    · exact carried.allocas other old
    · rwa [List.mem_singleton.1 last]
  · rw [List.append_assoc, List.mem_append, List.mem_append] at member
    rcases member with old | last | old
    · exact carried.fresh other (List.mem_append_left _ old)
    · rwa [List.mem_singleton.1 last]
    · exact carried.fresh other (List.mem_append_right _ old)

/-- What is dropped is no slot, so it is one of the rest. -/
theorem erase (carried : Carried unnamed first second front slots back kept more) {position : Nat}
    {inst : Instruction} (found : second[position]? = some inst)
    (plain : inst.op.isAlloca = false) :
    ∃ kept more, Carried unnamed first (second.eraseIdx position) front slots back kept more := by
  have behind : (front ++ slots).length ≤ position := by
    by_contra inside
    rw [Nat.not_le] at inside
    rw [carried.now, List.append_assoc, List.getElem?_append_left inside] at found
    have slot := carried.allocas inst (List.mem_of_getElem? found)
    rw [plain] at slot
    cases slot
  rw [carried.now, List.append_assoc, List.eraseIdx_append_of_length_le behind]
  by_cases early : position - (front ++ slots).length < kept.length
  · refine ⟨kept.eraseIdx (position - (front ++ slots).length), more, carried.before, ?_,
      (List.eraseIdx_sublist _ _).trans carried.rest, carried.allocas, carried.fresh⟩
    rw [List.eraseIdx_append_of_lt_length early]
    simp only [List.append_assoc]
  · refine ⟨kept, more.eraseIdx (position - (front ++ slots).length - kept.length),
      carried.before, ?_, carried.rest, carried.allocas, fun other member => ?_⟩
    · rw [List.eraseIdx_append_of_length_le (Nat.not_lt.1 early)]
      simp only [List.append_assoc]
    · refine carried.fresh other ?_
      rcases List.mem_append.1 member with old | late
      · exact List.mem_append_left _ old
      · exact List.mem_append_right _ (List.mem_of_mem_eraseIdx late)

/-- Where names are distinct and no instruction is missing, all of the rest was kept. -/
theorem kept_eq (carried : Carried unnamed first second front slots back kept more)
    (distinct : (first.map Instruction.name).Nodup)
    (present : ∀ inst ∈ first, inst ∈ second ∧ ¬ unnamed inst.name) : kept = back := by
  have nodup : (front ++ back).Nodup := carried.before ▸ distinct.of_map
  have all : back ⊆ kept := by
    intro inst member
    obtain ⟨still, old⟩ := present inst (carried.before ▸ List.mem_append_right _ member)
    have new : inst ∉ slots ++ more := fun inside => old (carried.fresh inst inside)
    rw [carried.now, List.append_assoc, List.mem_append, List.mem_append, List.mem_append] at still
    rcases still with (before | slot) | later | last
    · exact absurd rfl ((List.nodup_append.1 nodup).2.2 inst before inst member)
    · exact absurd (List.mem_append_left _ slot) new
    · exact later
    · exact absurd (List.mem_append_right _ last) new
  exact carried.rest.eq_of_length_le
    (List.subperm_of_subset (List.nodup_append.1 nodup).2.1 all).length_le

end Carried

/-! ### One function -/

/-- What has become of a block that was there before a call that started in `start`. -/
structure Block.Worked (unnamed : ValueName → Prop) (start : BlockId) (count : Nat) (id : BlockId)
    (first second : Block) : Prop where
  title : second.id = first.id ∧ second.label = first.label
  code : ∃ front slots back kept more,
    Carried unnamed first.insts.toList second.insts.toList front slots back kept more ∧
    (id = Function.entryId → (front ++ slots).length = count) ∧
    (id ≠ Function.entryId → front ++ slots = []) ∧ (id ≠ start → kept = back ∧ more = [])
  exit : id ≠ start → second.terminator = first.terminator

/-- The blocks that belong to a call that started in `start`: that one, and those it makes. -/
def Function.Owns (old : Function) (start id : BlockId) : Prop :=
  id = start ∨ old.block? id = none

/-- What a call that started in `start` of `old` has made of the function. -/
structure Function.Worked (free : BlockId → Prop) (start : BlockId) (old : Function) (count : Nat)
    (new : Function) : Prop where
  started : new.blocks.isEmpty = false
  blocks : ∀ id first, old.block? id = some first → ∃ second, new.block? id = some second ∧
    Block.Worked (fun name => ¬ old.Names name) start count id first second
  jumps : ∀ id, old.Owns start id → ∀ terminator, new.exit? id = some terminator →
    ∀ target ∈ terminator.successors, free target

namespace Function.Worked

variable {free : BlockId → Prop} {start : BlockId} {old new : Function} {count : Nat}

theorem refl (started : old.blocks.isEmpty = false) (begins : old.BeginsWithSlots count)
    (opened : old.exit? start = none) : Worked free start old count old := by
  refine ⟨started, fun id first found => ⟨first, found, ⟨rfl, rfl⟩, ?_, fun _ => rfl⟩,
    fun id owned terminator closed => ?_⟩
  · obtain ⟨slots, rest, split, length, allocas⟩ := begins
    by_cases entry : id = entryId
    · subst entry
      rw [code_of_block? found] at split
      exact ⟨slots, [], rest, rest, [], .start split allocas, fun _ => by simpa using length,
        fun inner => absurd rfl inner, fun _ => ⟨rfl, rfl⟩⟩
    · exact ⟨[], [], first.insts.toList, first.insts.toList, [], .start rfl (List.forall_mem_nil _),
        fun here => absurd here entry, fun _ => rfl, fun _ => ⟨rfl, rfl⟩⟩
  · rcases owned with rfl | new
    · rw [opened] at closed
      cases closed
    · rw [exit?, new] at closed
      cases closed

/-- A block of the call may be changed in any way that carries its code on. -/
theorem edit (worked : Worked free start old count new) {id : BlockId} {change : Block → Block}
    (owned : old.Owns start id)
    (carries : id = start → ∀ first second, new.block? id = some second →
      Block.Worked (fun name => ¬ old.Names name) start count id first second →
      Block.Worked (fun name => ¬ old.Names name) start count id first (change second))
    (exits : ∀ terminator, (∃ block, (change block).terminator = some terminator ∧
      block.terminator ≠ some terminator) → ∀ target ∈ terminator.successors, free target) :
    Worked free start old count (new.modifyBlock id change) := by
  refine ⟨?_, fun other first found => ?_, fun other owned' terminator closed => ?_⟩
  · simpa [modifyBlock, Array.isEmpty, Array.size_modify] using worked.started
  · obtain ⟨second, found', block⟩ := worked.blocks other first found
    rw [block?_modifyBlock]
    split_ifs with same
    · subst same
      refine ⟨change second, by rw [found', Option.map_some], ?_⟩
      rcases owned with here | missing
      · exact carries here first second found' block
      · rw [missing] at found
        cases found
    · exact ⟨second, found', block⟩
  · rw [exit?_modifyBlock] at closed
    split_ifs at closed with same
    · subst same
      cases found : new.block? other with
      | none =>
        rw [found] at closed
        cases closed
      | some block =>
        rw [found] at closed
        by_cases kept : block.terminator = some terminator
        · exact worked.jumps other owned' terminator ((exit?_of_block? found).trans kept)
        · exact exits terminator ⟨block, closed, kept⟩
    · exact worked.jumps other owned' terminator closed

theorem append (worked : Worked free start old count new) {id : BlockId} {inst : Instruction}
    (owned : old.Owns start id) (fresh : ¬ old.Names inst.name) :
    Worked free start old count (new.modifyBlock id fun found => found.append inst) := by
  refine worked.edit owned (fun here first second _ block => ?_) ?_
  · obtain ⟨front, slots, back, kept, more, carried, entry, inner, _⟩ := block.code
    refine ⟨block.title, ⟨front, slots, back, kept, more ++ [inst], ?_, entry, inner,
      fun elsewhere => absurd here elsewhere⟩, block.exit⟩
    rw [insts_append]
    exact carried.append fresh
  · rintro terminator ⟨block, closed, differs⟩
    exact absurd closed differs

theorem terminate (worked : Worked free start old count new) {id : BlockId}
    {terminator : Terminator} (owned : old.Owns start id)
    (allowed : ∀ target ∈ terminator.successors, free target) :
    Worked free start old count (new.modifyBlock id fun found => found.terminate terminator) := by
  refine worked.edit owned (fun here first second _ block => ?_) ?_
  · exact ⟨block.title, block.code, fun elsewhere => absurd here elsewhere⟩
  · rintro _ ⟨block, closed, _⟩
    cases closed
    exact allowed

theorem remove (worked : Worked free start old count new) {id : BlockId} {position : Nat}
    {inst : Instruction} (owned : old.Owns start id)
    (found : (new.code id)[position]? = some inst) (plain : inst.op.isAlloca = false) :
    Worked free start old count (new.modifyBlock id fun found => found.remove position) := by
  refine worked.edit owned (fun here first second stored block => ?_) ?_
  · obtain ⟨front, slots, back, kept, more, carried, entry, inner, _⟩ := block.code
    rw [code_of_block? stored] at found
    obtain ⟨kept', more', carried'⟩ := carried.erase found plain
    refine ⟨block.title, ⟨front, slots, back, kept', more', ?_, entry, inner,
      fun elsewhere => absurd here elsewhere⟩, block.exit⟩
    rw [insts_remove]
    exact carried'
  · rintro terminator ⟨block, closed, differs⟩
    exact absurd closed differs

/-- A new slot changes the entry block only, whoever owns it. -/
theorem insert (worked : Worked free start old count new) {inst : Instruction}
    (fresh : ¬ old.Names inst.name) (slot : inst.op.isAlloca = true) :
    Worked free start old (count + 1)
      (new.modifyBlock entryId fun found => found.insert count inst) := by
  refine ⟨?_, fun id first found => ?_, fun id owned terminator closed => ?_⟩
  · simpa [modifyBlock, Array.isEmpty, Array.size_modify] using worked.started
  · obtain ⟨second, found', block⟩ := worked.blocks id first found
    obtain ⟨front, slots, back, kept, more, carried, entry, inner, elsewhere⟩ := block.code
    rw [block?_modifyBlock]
    split_ifs with here
    · refine ⟨second.insert count inst, by rw [found', Option.map_some], block.title,
        ⟨front, slots ++ [inst], back, kept, more, ?_, fun _ => ?_,
          fun inner => absurd here inner, elsewhere⟩, block.exit⟩
      · rw [insts_insert]
        exact carried.insert fresh slot (entry here)
      · rw [← List.append_assoc, List.length_append, entry here, List.length_singleton]
    · exact ⟨second, found', block.title, ⟨front, slots, back, kept, more, carried,
        fun same => absurd same here, inner, elsewhere⟩, block.exit⟩
  · have same : (new.modifyBlock entryId fun found => found.insert count inst).exit? id =
        new.exit? id := exit?_modifyBlock_of_same _ _ _ fun _ => rfl
    exact worked.jumps id owned terminator (same ▸ closed)

theorem addBlock (worked : Worked free start old count new) (hint : String) :
    Worked free start old count (new.addBlock hint) := by
  refine ⟨?_, fun id first found => ?_, fun id owned terminator closed => ?_⟩
  · exact new.isEmpty_addBlock hint
  · obtain ⟨second, found', block⟩ := worked.blocks id first found
    refine ⟨second, ?_, block⟩
    rw [block?_addBlock worked.started, if_neg, found']
    rintro rfl
    rw [block?_nextBlock worked.started] at found'
    cases found'
  · rw [exit?_addBlock worked.started] at closed
    exact worked.jumps id owned terminator closed

/-- A block that does not exist yet was not there before. -/
theorem nextBlock (worked : Worked free start old count new) : old.block? new.nextBlock = none := by
  cases found : old.block? new.nextBlock with
  | none => rfl
  | some first =>
    obtain ⟨second, found', _⟩ := worked.blocks _ first found
    rw [block?_nextBlock worked.started] at found'
    cases found'

theorem withEntry (worked : Worked free start old count new) : new.withEntry = new := by
  rw [Function.withEntry, worked.started]
  rfl

end Function.Worked

end TreeLowering.Ir

namespace TreeLowering.Lowering

open TreeLowering.Ir TreeLowering.Tree

/-! ### The builder -/

/-- The blocks that a call may jump to: those it makes, and the edges of the loop around it. -/
def CallTarget (old : Function) (loop : Option LoopTargets) (target : BlockId) : Prop :=
  old.block? target = none ∨
    ∃ targets, loop = some targets ∧ (target = targets.breakTo ∨ target = targets.continueTo)

/-- How far a call has come that started from `base`, at `origin` in the function `old`. -/
structure Reach (base : Builder) (origin : Cursor) (loop : Option LoopTargets) (old : Function)
    (now : Builder) : Prop where
  current : now.current = some origin.func
  cursor : ∀ cursor, now.cursor = some cursor →
    cursor.func = origin.func ∧ old.Owns origin.block cursor.block
  beside : Module.Beside origin.func base.target now.target
  temps : base.nextTemp ≤ now.nextTemp
  names : ∀ text ∈ base.usedNames, text ∈ now.usedNames
  worked : ∃ new, now.target.function? origin.func = some new ∧
    Function.Worked (CallTarget old loop) origin.block old now.slotCount new

/-- The names of a function are known to the builder. -/
structure Builder.Accounts (builder : Builder) (function : Function) : Prop where
  temps : ∀ number, function.Names (.temp number) → number < builder.nextTemp
  names : ∀ text, function.Names (.named text) → text ∈ builder.usedNames

namespace Reach

variable {base now : Builder} {origin : Cursor} {loop : Option LoopTargets} {old : Function}

/-- A change of the function, as long as it was worked on. -/
theorem edit (reach : Reach base origin loop old now) (change : Function → Function)
    {later : Builder} (current : later.current = now.current)
    (cursor : ∀ cursor, later.cursor = some cursor →
      cursor.func = origin.func ∧ old.Owns origin.block cursor.block)
    (temps : now.nextTemp ≤ later.nextTemp)
    (names : ∀ text ∈ now.usedNames, text ∈ later.usedNames)
    (modified : later.target.functions = now.target.functions.modify origin.func.index change)
    (works : ∀ new, now.target.function? origin.func = some new →
      Function.Worked (CallTarget old loop) origin.block old now.slotCount new →
      Function.Worked (CallTarget old loop) origin.block old later.slotCount (change new)) :
    Reach base origin loop old later := by
  obtain ⟨new, stored, worked⟩ := reach.worked
  refine ⟨current.trans reach.current, cursor, ?_, Nat.le_trans reach.temps temps,
    fun text member => names text (reach.names text member), change new, ?_, works new stored worked⟩
  · exact reach.beside.trans (.modify modified)
  · rw [Module.function?_modify modified, if_pos rfl, stored, Option.map_some]

/-- Declarations leave the function alone. -/
theorem retarget (reach : Reach base origin loop old now) {target : Module}
    (declares : now.target.Declares target) : Reach base origin loop old { now with target } := by
  obtain ⟨new, stored, worked⟩ := reach.worked
  refine ⟨reach.current, reach.cursor, reach.beside.trans ⟨fun other _ => declares.kept other,
    fun other _ missing function => declares.added other function missing⟩, reach.temps,
    reach.names, new, declares.kept _ _ stored, worked⟩

theorem fresh_temp (reach : Reach base origin loop old now) (accounts : base.Accounts old)
    {number : Nat} (later : now.nextTemp ≤ number) : ¬ old.Names (.temp number) := fun named =>
  Nat.lt_irrefl _
    (Nat.lt_of_lt_of_le (accounts.temps number named) (Nat.le_trans reach.temps later))

theorem emit (reach : Reach base origin loop old now) (accounts : base.Accounts old)
    (op : Operation) (ty : Ty) :
    Returns (Build.emitTemp op ty) now fun _ => Reach base origin loop old := by
  refine Build.returns_emitTemp fun cursor positioned _ => ?_
  obtain ⟨inside, owned⟩ := reach.cursor cursor positioned
  refine reach.edit (fun function => function.modifyBlock cursor.block fun found =>
    found.append ⟨.temp now.nextTemp, ty, op⟩) rfl reach.cursor (Nat.le_succ _) (fun _ => id) ?_
      fun new _ worked => ?_
  · rw [← inside]
    rfl
  · exact worked.append owned (reach.fresh_temp accounts (Nat.le_refl _))

theorem reserve (reach : Reach base origin loop old now) (accounts : base.Accounts old)
    (ty : Ty) (variableName : Option String) :
    Returns (Build.alloca ty variableName) now fun _ => Reach base origin loop old := by
  refine Build.returns_alloca fun func name start current named => ?_
  obtain ⟨new, stored, worked⟩ := reach.worked
  cases reach.current.symm.trans current
  have fresh : ¬ old.Names name := by
    rcases named.fresh with ⟨number, later, rfl⟩ | ⟨text, unused, rfl⟩
    · exact reach.fresh_temp accounts later
    · exact fun used => unused (reach.names text (accounts.names text used))
  refine reach.edit (fun function => function.modifyBlock Function.entryId fun found =>
    found.insert start.slotCount ⟨name, .ptr ty true, .alloca ty⟩) named.current
      (fun cursor positioned => reach.cursor cursor (named.cursor ▸ positioned)) named.temps
      named.names ?_ fun new _ worked => ?_
  · rw [named.target, Module.modifyFunction_of_same stored worked.withEntry]
    rfl
  · show Function.Worked _ _ _ (start.slotCount + 1) _
    rw [named.slots]
    exact worked.insert fresh rfl

theorem declare (reach : Reach base origin loop old now) (name : String)
    (params : List Ir.Param) (ret : Ty) :
    Returns (Build.declare fun target => target.declareFunction name params ret) now
      fun _ => Reach base origin loop old :=
  Build.returns_declare fun _ _ declared =>
    reach.retarget (Module.declareFunction_spec declared).1

/-- The load that a copy makes superfluous is dropped from a block of the call. -/
theorem drop (reach : Reach base origin loop old now) {value address : Value} {cursor : Cursor}
    {position : Nat} (source : now.copySource? value = .ok (some (cursor, position, address))) :
    Reach base origin loop old { now with
      target := now.target.modifyBlock cursor.func cursor.block fun found =>
        found.remove position } := by
  obtain ⟨name, ty, function, block, rfl, _, _, positioned, stored, found, loaded⟩ :=
    Builder.copySource?_spec source
  obtain ⟨inside, owned⟩ := reach.cursor cursor positioned
  obtain ⟨later, ty', earlier, split, length, _⟩ := Builder.findLoad?_spec loaded
  refine reach.edit (fun function => function.modifyBlock cursor.block fun found =>
    found.remove position) rfl reach.cursor (Nat.le_refl _) (fun _ => id) ?_
      fun new stored' worked => ?_
  · rw [← inside]
    rfl
  · rw [inside, stored'] at stored
    cases stored
    have there : (function.code cursor.block)[position]? = some ⟨name, ty', .load address⟩ := by
      rw [Function.code_of_block? found, ← List.reverse_reverse block.insts.toList, split, ← length]
      simp
    exact worked.remove owned there rfl

theorem store (reach : Reach base origin loop old now) (accounts : base.Accounts old)
    (address value : Value) :
    Returns (Build.store address value) now fun _ => Reach base origin loop old :=
  Build.returns_store reach (fun reach _ => reach.emit accounts _ _)
    (fun reach => reach.declare _ _ _) reach.drop

theorem newBlock (reach : Reach base origin loop old now) (hint : String) :
    Returns (Build.newBlock hint) now fun block after =>
      Reach base origin loop old after ∧ old.block? block = none := by
  refine Build.returns_newBlock fun func function current stored => ?_
  obtain ⟨new, stored', worked⟩ := reach.worked
  cases reach.current.symm.trans current
  cases stored.symm.trans stored'
  exact ⟨reach.edit (fun function => function.addBlock hint) rfl reach.cursor (Nat.le_refl _)
    (fun _ => id) rfl fun _ _ worked => worked.addBlock hint, worked.nextBlock⟩

theorem terminate (reach : Reach base origin loop old now) {terminator : Terminator}
    (allowed : ∀ target ∈ terminator.successors, CallTarget old loop target) :
    Returns (Build.terminate terminator) now fun _ => Reach base origin loop old := by
  refine Build.returns_terminate fun cursor positioned _ => ?_
  obtain ⟨inside, owned⟩ := reach.cursor cursor positioned
  refine reach.edit (fun function => function.modifyBlock cursor.block fun found =>
    found.terminate terminator) rfl nofun (Nat.le_refl _) (fun _ => id) ?_
      fun new _ worked => worked.terminate owned allowed
  rw [← inside]
  rfl

theorem positionAt (reach : Reach base origin loop old now) {block : BlockId}
    (owned : old.Owns origin.block block) :
    Returns (Build.positionAt origin.func block) now fun _ => Reach base origin loop old := by
  refine Build.returns_positionAt fun target same _ => ?_
  obtain ⟨new, stored, worked⟩ := reach.worked
  rw [Module.modifyFunction_of_same stored worked.withEntry] at same
  subst same
  rw [Builder.enter, if_pos reach.current]
  refine ⟨reach.current, fun cursor positioned => ?_, reach.beside, reach.temps, reach.names, new,
    stored, worked⟩
  cases positioned
  exact ⟨rfl, owned⟩

end Reach

/-! ### The regime -/

/-- The rules of a call that started from `base`, at `origin` in the function `old`. -/
def Regime.region (base : Builder) (origin : Cursor) (loop : Option LoopTargets)
    (old : Function) : Regime where
  holds builder _ := Reach base origin loop old builder
  excused _ := True
  frames frames := ∀ frame targets, frames.head? = some frame → frame.loops.head? = some targets →
    CallTarget old loop targets.breakTo ∧ CallTarget old loop targets.continueTo
  mine func := func = origin.func
  own block := old.Owns origin.block block
  free block := CallTarget old loop block
  mapped _ _ := True
  yields _ _ := True
  joins _ _ := True
  answers _ := True
  returns _ := True

namespace Regime.region

variable {base : Builder} {origin : Cursor} {loop : Option LoopTargets} {old : Function}

theorem steady (source : Source) (accounts : base.Accounts old) :
    (Regime.region base origin loop old).Steady source where
  pardons _ _ := trivial
  current reach current := Option.some.inj (current.symm.trans reach.current)
  here reach positioned := (reach.cursor _ positioned).2
  emits reach _ := reach.emit accounts _ _
  reserves reach := reach.reserve accounts _ _
  stores reach := reach.store accounts _ _
  pins reach := Build.returns_pin fun _ =>
    ⟨reach.current, reach.cursor, reach.beside, reach.temps, reach.names, reach.worked⟩
  opens reach := (reach.newBlock _).mono fun _ _ ⟨kept, new⟩ => ⟨kept, .inr new, .inl new⟩
  moves reach mine owned := by
    cases mine
    exact reach.positionAt owned
  closes reach free _ := reach.terminate free
  declares reach := reach.declare _ _ _
  defines reach := Build.returns_declare fun _ _ declared =>
    reach.retarget (.of_functions (Module.declareGlobal_elsewhere declared).2)
  maps ty reach := (ensures_mapTypeWithin source _ ty _).ends.mono
    (fun _ _ kept => ⟨reach.retarget (.of_functions kept.functions), trivial⟩) fun _ _ _ => trivial
  loops {env targets} leave again frames := by
    obtain ⟨scopes, frames'⟩ := env
    cases frames' with
    | nil => exact frames
    | cons frame outer =>
      intro _ _ first second
      cases first
      cases second
      exact ⟨leave, again⟩
  targets {env jump target} frames found := by
    obtain ⟨targets, innermost, rfl⟩ := Option.map_eq_some_iff.1 found
    obtain ⟨frame, first, second⟩ := Option.bind_eq_some_iff.1 innermost
    obtain ⟨leave, again⟩ := frames frame targets first second
    cases jump
    · exact leave
    · exact again
  answers _ _ := trivial

theorem fits (kind : ExprKind) (ty : TypeId) :
    (Regime.region base origin loop old).Fits kind ty :=
  .of_trivial (fun _ _ => trivial) (fun _ => trivial) (fun _ _ => trivial) kind ty

end Regime.region

end TreeLowering.Lowering
