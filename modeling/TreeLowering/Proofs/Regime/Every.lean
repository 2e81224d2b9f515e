/-
This file follows a law that every instruction and every terminator of a module has to meet. A step
of the builder keeps the law as soon as what it adds meets it: nothing that stands in a block is
changed later, and what is dropped is missed by no law of this kind.
-/

import TreeLowering.Proofs.Regime.Returned

namespace TreeLowering.Ir

/-! ### Blocks -/

/-- Each instruction of the block meets `inst`, and its terminator meets `exit`. -/
structure Block.Every (inst : Instruction → Prop) (exit : Terminator → Prop) (block : Block) :
    Prop where
  insts : ∀ entry ∈ block.insts.toList, inst entry
  exit : ∀ terminator, block.terminator = some terminator → exit terminator

namespace Block.Every

variable {inst : Instruction → Prop} {exit : Terminator → Prop} {block : Block}

theorem fresh (id : BlockId) (label : String) : (Block.fresh id label).Every inst exit :=
  ⟨List.forall_mem_nil _, fun _ closed => by cases closed⟩

theorem append (every : block.Every inst exit) {entry : Instruction} (meets : inst entry) :
    (block.append entry).Every inst exit := by
  refine ⟨fun other member => ?_, every.exit⟩
  rw [Function.insts_append] at member
  rcases List.mem_append.1 member with old | new
  · exact every.insts other old
  · cases List.mem_singleton.1 new
    exact meets

theorem insert (every : block.Every inst exit) (position : Nat) {entry : Instruction}
    (meets : inst entry) : (block.insert position entry).Every inst exit := by
  refine ⟨fun other member => ?_, every.exit⟩
  rw [Function.insts_insert] at member
  rcases List.mem_append.1 member with early | late
  · exact every.insts other (List.mem_of_mem_take early)
  · rcases List.mem_cons.1 late with rfl | late
    · exact meets
    · exact every.insts other (List.mem_of_mem_drop late)

theorem remove (every : block.Every inst exit) (position : Nat) :
    (block.remove position).Every inst exit := by
  refine ⟨fun other member => ?_, every.exit⟩
  rw [Function.insts_remove] at member
  exact every.insts other (List.mem_of_mem_eraseIdx member)

theorem terminate (every : block.Every inst exit) {terminator : Terminator}
    (meets : exit terminator) : (block.terminate terminator).Every inst exit :=
  ⟨every.insts, fun _ closed => Option.some.inj closed ▸ meets⟩

end Block.Every

/-! ### Modules -/

/-- Only an entry block may be new, and then it is empty. -/
theorem Function.block_withEntry (function : Function) {id : BlockId} {block : Block}
    (stored : function.withEntry.block? id = some block) :
    function.block? id = some block ∨ ∃ id' label, block = .fresh id' label := by
  unfold withEntry at stored
  split at stored
  · rw [block?, List.getElem?_toArray, List.getElem?_singleton] at stored
    split_ifs at stored
    cases stored
    exact .inr ⟨_, _, rfl⟩
  · exact .inl stored

/-- Each instruction of each function meets `inst`, and each terminator meets `exit`. -/
def Module.Every (inst : FuncId → Instruction → Prop) (exit : Terminator → Prop)
    (target : Module) : Prop :=
  ∀ func function, target.function? func = some function → ∀ id block,
    function.block? id = some block → block.Every (inst func) exit

namespace Module.Every

variable {inst : FuncId → Instruction → Prop} {exit : Terminator → Prop} {target second : Module}

theorem empty (name : String) : (Module.empty name).Every inst exit := by
  intro func function found
  cases found

theorem modifyBlock (every : target.Every inst exit) (func : FuncId) (id : BlockId)
    {change : Block → Block}
    (keeps : ∀ block, block.Every (inst func) exit → (change block).Every (inst func) exit) :
    (target.modifyBlock func id change).Every inst exit := by
  intro other function found other' block stored
  rw [Module.modifyBlock, function?_modifyFunction] at found
  split_ifs at found with here
  · subst here
    obtain ⟨old, known, rfl⟩ := Option.map_eq_some_iff.1 found
    rw [Function.block?_modifyBlock] at stored
    split_ifs at stored
    · obtain ⟨before, held, rfl⟩ := Option.map_eq_some_iff.1 stored
      exact keeps before (every _ old known _ before held)
    · exact every _ old known _ block stored
  · exact every other function found other' block stored

/-- New blocks are empty. -/
theorem addBlocks (every : target.Every inst exit) (func : FuncId) {change : Function → Function}
    {named : ∀ function, (change function).name = function.name}
    (adds : ∀ function id block, (change function).block? id = some block →
      function.block? id = some block ∨ ∃ id' label, block = .fresh id' label) :
    (target.modifyFunction func change named).Every inst exit := by
  intro other function found id block stored
  rw [function?_modifyFunction] at found
  split_ifs at found
  · obtain ⟨old, known, rfl⟩ := Option.map_eq_some_iff.1 found
    rcases adds old id block stored with kept | ⟨id', label, rfl⟩
    · exact every _ old known id block kept
    · exact .fresh id' label
  · exact every other function found id block stored

theorem withEntry (every : target.Every inst exit) (func : FuncId) :
    (target.modifyFunction func Function.withEntry).Every inst exit :=
  every.addBlocks func fun function _ _ => function.block_withEntry

theorem addBlock (every : target.Every inst exit) (func : FuncId) (hint : String) :
    (target.modifyFunction func fun function => function.addBlock hint).Every inst exit := by
  refine every.addBlocks func fun function id block stored => ?_
  unfold Function.block? Function.addBlock at stored
  dsimp only at stored
  rw [Array.getElem?_push] at stored
  split_ifs at stored
  · cases stored
    exact .inr ⟨_, _, rfl⟩
  · exact function.block_withEntry stored

/-- Functions that are only declared have no instructions yet. -/
theorem declares (every : target.Every inst exit) (declares : target.Declares second) :
    second.Every inst exit := by
  intro func function found id block stored
  cases old : target.function? func with
  | none =>
    have bare := declares.added func function old found
    rw [Function.block?, Array.isEmpty_iff.1 bare] at stored
    cases stored
  | some function' =>
    cases (declares.kept func function' old).symm.trans found
    exact every func _ old id block stored

end Module.Every

end TreeLowering.Ir

namespace TreeLowering.Lowering

open TreeLowering.Ir TreeLowering.Tree

/-! ### Steps of the builder -/

/-- Functions may have grown, by instructions and terminators that meet the law, and nothing else
has changed in the module. -/
structure Builder.Adds (inst : FuncId → Instruction → Prop) (exit : Terminator → Prop)
    (before after : Builder) : Prop where
  every : before.target.Every inst exit → after.target.Every inst exit
  types : after.target.types = before.target.types
  globals : after.target.globals = before.target.globals

namespace Build

open Builder

variable {inst : FuncId → Instruction → Prop} {exit : Terminator → Prop}
  {builder first second third : Builder}

theorem Adds.trans (earlier : first.Adds inst exit second) (later : second.Adds inst exit third) :
    first.Adds inst exit third :=
  ⟨fun every => later.every (earlier.every every), later.types.trans earlier.types,
    later.globals.trans earlier.globals⟩

theorem adds_emitTemp {op : Operation} {ty : Ty}
    (meets : ∀ func number, inst func ⟨.temp number, ty, op⟩) :
    Returns (emitTemp op ty) builder fun _ after => builder.Adds inst exit after :=
  returns_emitTemp fun _ _ _ =>
    ⟨fun every => every.modifyBlock _ _ fun _ kept => kept.append (meets _ _), rfl, rfl⟩

theorem adds_ensureEntry (func : FuncId) :
    Returns (ensureEntry func) builder fun _ after => builder.Adds inst exit after :=
  returns_ensureEntry ⟨fun every => every.withEntry func, rfl, rfl⟩

theorem adds_alloca {ty : Ty} {variableName : Option String}
    (meets : ∀ func name start, builder.current = some func →
      SlotNamed variableName builder start name → inst func ⟨name, .ptr ty true, .alloca ty⟩) :
    Returns (alloca ty variableName) builder fun _ after => builder.Adds inst exit after := by
  refine returns_alloca fun func name start current named => ⟨fun every => ?_, ?_, ?_⟩
  · show ((start.target.modifyFunction func _).modifyBlock ..).Every inst exit
    rw [named.target]
    exact (every.withEntry func).modifyBlock _ _ fun _ kept =>
      kept.insert _ (meets func name start current named)
  · exact congrArg (·.types) named.target
  · exact congrArg (·.globals) named.target

theorem adds_newBlock (hint : String) :
    Returns (newBlock hint) builder fun _ after => builder.Adds inst exit after :=
  returns_newBlock fun func _ _ _ => ⟨fun every => every.addBlock func hint, rfl, rfl⟩

theorem adds_terminate {terminator : Terminator} (meets : exit terminator) :
    Returns (terminate terminator) builder fun _ after => builder.Adds inst exit after :=
  returns_terminate fun _ _ _ =>
    ⟨fun every => every.modifyBlock _ _ fun _ kept => kept.terminate meets, rfl, rfl⟩

theorem adds_positionAt (func : FuncId) (id : BlockId) :
    Returns (positionAt func id) builder fun _ after => builder.Adds inst exit after := by
  refine returns_positionAt fun target same _ => ?_
  subst same
  have entered : ∀ start : Builder, (start.enter func).target = start.target := by
    intro start
    unfold Builder.enter
    split
    · rfl
    · split <;> rfl
  have kept := entered
    { builder with target := builder.target.modifyFunction func Function.withEntry }
  refine ⟨fun every => ?_, congrArg (·.types) kept, congrArg (·.globals) kept⟩
  dsimp only
  rw [kept]
  exact every.withEntry func

theorem adds_pin (value : Value) :
    Returns (pin value) builder fun _ after => builder.Adds inst exit after :=
  returns_pin fun _ => ⟨id, rfl, rfl⟩

theorem adds_declareFunction {name : String} {params : List Ir.Param} {ret : Ty} :
    Returns (declare fun target => target.declareFunction name params ret) builder
      fun _ after => builder.Adds inst exit after := by
  refine returns_declare fun func target declared => ?_
  obtain ⟨types, globals⟩ := Module.declareFunction_elsewhere declared
  exact ⟨fun every => every.declares (Module.declareFunction_spec declared).1, types, globals⟩

/-- A store is itself an instruction, or a call of the copy routine. -/
theorem adds_store {address value : Value}
    (meets : ∀ {op ty}, StoreStep address value op ty →
      ∀ func number, inst func ⟨.temp number, ty, op⟩) :
    Returns (store address value) builder fun _ after => builder.Adds inst exit after := by
  have start : builder.Adds inst exit builder := ⟨id, rfl, rfl⟩
  exact returns_store_steps start
    (fun sofar step => (adds_emitTemp (meets step)).mono fun _ _ => Adds.trans sofar)
    (fun sofar => adds_declareFunction.mono fun _ _ => Adds.trans sofar)
    fun _ => ⟨fun every => every.modifyBlock _ _ fun _ kept => kept.remove _, rfl, rfl⟩

end Build

end TreeLowering.Lowering
