/-
This file proves that a certified function stays certified while it is built. A function is changed
in six ways: a block is added, an instruction or a phi is added at the end of a block, a stack slot
is added to the entry block, an unread instruction is dropped, and a block is closed. For each way
there is a lemma that says what it needs and which certificate it leaves.
-/

import Mathlib.Data.List.Nodup
import TreeLowering.Proofs.Ssa.Certificate

namespace TreeLowering.Ir

/-! ### Consequences of a certificate -/

namespace Certified

variable {function : Function} {avail : BlockId → Register → Prop}

theorem present_of_known (certified : Certified function avail) {id : BlockId} {reg : Register}
    (known : function.KnownAfter avail id reg) : function.Present reg := by
  rcases known with (available | ⟨_, inst, member, _, same⟩) | defined
  · obtain ⟨id', _, defined⟩ := certified.elsewhere id reg available
    exact ⟨id', defined⟩
  · exact ⟨_, inst, member, same⟩
  · exact ⟨id, defined⟩

/-- A register has one type. -/
theorem ty_unique (certified : Certified function avail) {name : ValueName} {ty ty' : Ty}
    (first : function.Present (name, ty)) (second : function.Present (name, ty')) : ty = ty' := by
  obtain ⟨id, inst, member, same⟩ := first
  obtain ⟨id', inst', member', same'⟩ := second
  obtain ⟨rfl, rfl⟩ := Instruction.register_eq.1 same
  obtain ⟨names, rfl⟩ := Instruction.register_eq.1 same'
  obtain rfl := certified.apart id id' inst member inst' member' names.symm
  rw [List.inj_on_of_nodup_map (certified.distinct id) member member' names.symm]

/-- Every register that an instruction reads is set somewhere. -/
theorem present_of_uses (certified : Certified function avail) {id : BlockId} {inst : Instruction}
    (member : inst ∈ function.code id) {name : ValueName} (uses : inst.uses name = true) :
    function.Names name := by
  simp only [Instruction.uses, List.any_eq_true, beq_iff_eq] at uses
  obtain ⟨value, operand, reads⟩ := uses
  cases value <;> simp only [Value.regName?, Option.some.injEq, reduceCtorEq] at reads
  case reg name' ty =>
  subst reads
  refine ⟨ty, ?_⟩
  cases isPhi : inst.op.isPhi with
  | false =>
    obtain ⟨before, after, split⟩ := List.append_of_mem member
    have readable := (split ▸ certified.ordered id).readable isPhi operand
    rcases readable with known | ⟨earlier, earlierMember, same⟩
    · exact certified.present_of_known (Or.inl known)
    · exact ⟨id, earlier, by rw [split]; exact List.mem_append_left _ earlierMember, same⟩
  | true =>
    cases op : inst.op <;> rw [op] at isPhi operand <;>
      simp only [Operation.isPhi, reduceCtorEq, Operation.operands, List.mem_map] at isPhi operand
    obtain ⟨arm, armMember, same⟩ := operand
    have readable := (certified.phis id inst _ member op).values arm armMember
    rw [same] at readable
    exact certified.present_of_known readable

/-- A register that no instruction sets is read nowhere. -/
theorem unused_of_absent (certified : Certified function avail) {name : ValueName}
    (absent : ¬ function.Names name) : function.Unused name := by
  refine ⟨fun id inst member => ?_, fun id terminator exit value operand reads => absent ?_⟩
  · cases uses : inst.uses name with
    | false => rfl
    | true => exact absurd (certified.present_of_uses member uses) absent
  · cases value <;> simp only [Value.regName?, Option.some.injEq, reduceCtorEq] at reads
    case reg name' ty =>
    subst reads
    exact ⟨ty, certified.present_of_known (certified.closing id terminator exit _ operand)⟩

end Certified

/-! ### What a change does to the blocks -/

namespace Function

variable {function : Function} {id : BlockId} {block : Block}

theorem block?_modifyBlock (function : Function) (id other : BlockId) (change : Block → Block) :
    (function.modifyBlock id change).block? other =
      if other = id then (function.block? other).map change else function.block? other := by
  obtain ⟨index⟩ := id
  obtain ⟨index'⟩ := other
  simp only [modifyBlock, block?, Array.getElem?_modify, BlockId.mk.injEq]
  by_cases same : index = index'
  · rw [if_pos same, if_pos same.symm]
  · rw [if_neg same, if_neg fun equal => same equal.symm]

theorem code_of_block? (found : function.block? id = some block) :
    function.code id = block.insts.toList := by
  rw [code, found]

theorem exit?_of_block? (found : function.block? id = some block) :
    function.exit? id = block.terminator := by
  rw [exit?, found, Option.bind_some]

/-- Which blocks precede which only depends on how blocks are left. -/
theorem precedes_of_exits {second : Function}
    (exit : ∀ other, second.exit? other = function.exit? other) {source target : BlockId} :
    second.Precedes source target ↔ function.Precedes source target := by
  rw [Precedes, Precedes, exit]

theorem code_modifyBlock (function : Function) (id other : BlockId) (change : Block → Block) :
    (function.modifyBlock id change).code other =
      if other = id then
        match function.block? other with
        | some block => (change block).insts.toList
        | none => []
      else function.code other := by
  rw [code, block?_modifyBlock]
  split_ifs with same
  · cases function.block? other <;> rfl
  · rfl

theorem exit?_modifyBlock (function : Function) (id other : BlockId) (change : Block → Block) :
    (function.modifyBlock id change).exit? other =
      if other = id then (function.block? other).bind fun block => (change block).terminator
      else function.exit? other := by
  rw [exit?, block?_modifyBlock]
  split_ifs with same
  · cases function.block? other <;> rfl
  · rfl

/-- A change that keeps the terminator of a block keeps all terminators. -/
theorem exit?_modifyBlock_of_same (function : Function) (id other : BlockId)
    {change : Block → Block} (same : ∀ block, (change block).terminator = block.terminator) :
    (function.modifyBlock id change).exit? other = function.exit? other := by
  rw [exit?_modifyBlock]
  split_ifs
  · rw [exit?]
    cases function.block? other
    · rfl
    · exact same _
  · rfl

theorem isSome_block?_modifyBlock (function : Function) (id other : BlockId)
    (change : Block → Block) :
    ((function.modifyBlock id change).block? other).isSome = (function.block? other).isSome := by
  rw [block?_modifyBlock]
  split_ifs
  · rw [Option.isSome_map]
  · rfl

theorem insts_append (block : Block) (inst : Instruction) :
    (block.append inst).insts.toList = block.insts.toList ++ [inst] := by
  simp [Block.append]

theorem code_append (found : function.block? id = some block) (inst : Instruction)
    (other : BlockId) :
    (function.modifyBlock id fun found => found.append inst).code other =
      if other = id then function.code id ++ [inst] else function.code other := by
  rw [code_modifyBlock]
  refine if_ctx_congr Iff.rfl (fun same => ?_) fun _ => rfl
  rw [same, code_of_block? found, found]
  exact insts_append block inst

theorem insertIdx_min {α : Type} (items : List α) (position : Nat) (item : α) :
    items.insertIdx (min position items.length) item =
      items.take position ++ item :: items.drop position := by
  induction items generalizing position with
  | nil => simp
  | cons first rest inductionHypothesis =>
    cases position with
    | zero => simp
    | succ position =>
      rw [List.length_cons, Nat.succ_min_succ, List.insertIdx_succ_cons, inductionHypothesis]
      rfl

theorem insts_insert (block : Block) (position : Nat) (inst : Instruction) :
    (block.insert position inst).insts.toList =
      block.insts.toList.take position ++ inst :: block.insts.toList.drop position := by
  simp only [Block.insert]
  rw [Array.insertIdxIfInBounds, dif_pos (Nat.min_le_right _ _), Array.toList_insertIdx,
    ← Array.length_toList, insertIdx_min]

theorem code_insert (found : function.block? id = some block) (position : Nat)
    (inst : Instruction) (other : BlockId) :
    (function.modifyBlock id fun found => found.insert position inst).code other =
      if other = id then
        (function.code id).take position ++ inst :: (function.code id).drop position
      else function.code other := by
  rw [code_modifyBlock]
  refine if_ctx_congr Iff.rfl (fun same => ?_) fun _ => rfl
  rw [same, code_of_block? found, found]
  exact insts_insert block position inst

theorem insts_remove (block : Block) (position : Nat) :
    (block.remove position).insts.toList = block.insts.toList.eraseIdx position := by
  simp only [Block.remove, Array.eraseIdxIfInBounds]
  split_ifs with inside
  · rw [Array.toList_eraseIdx]
  · rw [List.eraseIdx_of_length_le (by simpa using inside)]

theorem code_remove (found : function.block? id = some block) (position : Nat)
    (other : BlockId) :
    (function.modifyBlock id fun found => found.remove position).code other =
      if other = id then (function.code id).eraseIdx position else function.code other := by
  rw [code_modifyBlock]
  refine if_ctx_congr Iff.rfl (fun same => ?_) fun _ => rfl
  rw [same, code_of_block? found, found]
  exact insts_remove block position

theorem code_terminate (function : Function) (id other : BlockId) (terminator : Terminator) :
    (function.modifyBlock id fun found => found.terminate terminator).code other =
      function.code other := by
  rw [code_modifyBlock]
  split_ifs
  · rw [code]
    cases function.block? other <;> rfl
  · rfl

theorem exit?_terminate (found : function.block? id = some block) (terminator : Terminator)
    (other : BlockId) :
    (function.modifyBlock id fun found => found.terminate terminator).exit? other =
      if other = id then some terminator else function.exit? other := by
  rw [exit?_modifyBlock]
  refine if_ctx_congr Iff.rfl (fun same => ?_) fun _ => rfl
  rw [same, found]
  rfl

theorem precedes_terminate (found : function.block? id = some block)
    (opened : function.exit? id = none) {terminator : Terminator} {source target : BlockId} :
    (function.modifyBlock id fun found => found.terminate terminator).Precedes source target ↔
      function.Precedes source target ∨ source = id ∧ target ∈ terminator.successors := by
  rw [Precedes, Precedes, exit?_terminate found]
  by_cases same : source = id
  · subst same
    simp [opened]
  · simp [same]

/-! ### A new block -/

theorem nextBlock_of_started (started : function.blocks.isEmpty = false) :
    function.nextBlock = ⟨function.blocks.size⟩ := by
  rw [nextBlock, if_neg (by simp [started])]

theorem block?_addBlock (started : function.blocks.isEmpty = false) (hint : String)
    (other : BlockId) :
    (function.addBlock hint).block? other =
      if other = function.nextBlock then
        some (.fresh other (hint ++ "." ++ toString other.index))
      else function.block? other := by
  obtain ⟨index⟩ := other
  simp only [addBlock, withEntry, started, block?, Array.getElem?_push, Bool.false_eq_true,
    if_false, nextBlock_of_started started, BlockId.mk.injEq]
  by_cases same : index = function.blocks.size
  · simp [same]
  · simp [same]

theorem block?_nextBlock (started : function.blocks.isEmpty = false) :
    function.block? function.nextBlock = none := by
  simp [nextBlock_of_started started, block?]

theorem code_addBlock (started : function.blocks.isEmpty = false) (hint : String)
    (other : BlockId) : (function.addBlock hint).code other = function.code other := by
  rw [code, block?_addBlock started]
  split_ifs with same
  · rw [same, code, block?_nextBlock started]
    rfl
  · rfl

theorem exit?_addBlock (started : function.blocks.isEmpty = false) (hint : String)
    (other : BlockId) : (function.addBlock hint).exit? other = function.exit? other := by
  rw [exit?, block?_addBlock started]
  split_ifs with same
  · rw [same, exit?, block?_nextBlock started]
    rfl
  · rfl

theorem code_nextBlock (started : function.blocks.isEmpty = false) :
    function.code function.nextBlock = [] := by
  rw [code, block?_nextBlock started]

theorem exit?_nextBlock (started : function.blocks.isEmpty = false) :
    function.exit? function.nextBlock = none := by
  rw [exit?, block?_nextBlock started, Option.bind_none]

/-- A block with an instruction is not the next one. -/
theorem ne_nextBlock_of_code (started : function.blocks.isEmpty = false) {inst : Instruction}
    (member : inst ∈ function.code id) : id ≠ function.nextBlock := by
  rintro rfl
  rw [code_nextBlock started] at member
  cases member

/-- A block that is left is not the next one. -/
theorem ne_nextBlock_of_exit (started : function.blocks.isEmpty = false) {terminator : Terminator}
    (exit : function.exit? id = some terminator) : id ≠ function.nextBlock := by
  rintro rfl
  rw [exit?_nextBlock started] at exit
  cases exit

theorem nextBlock_ne_entry (started : function.blocks.isEmpty = false) :
    function.nextBlock ≠ entryId := by
  intro equal
  rw [nextBlock_of_started started] at equal
  have size : function.blocks.size = 0 := BlockId.mk.inj equal
  simp [Array.isEmpty, size] at started

end Function

/-! ### More instructions, more registers -/

/-- The first function has no instruction that the second one lacks, block by block. -/
structure Within (first second : Function) : Prop where
  params : second.params = first.params
  code : ∀ id, ∀ inst ∈ first.code id, inst ∈ second.code id

namespace Within

variable {first second : Function} {avail : BlockId → Register → Prop} {id : BlockId}
  {reg : Register}

theorem defines (within : Within first second) (defined : first.Defines id reg) :
    second.Defines id reg := by
  obtain ⟨inst, member, same⟩ := defined
  exact ⟨inst, within.code id inst member, same⟩

theorem present (within : Within first second) (present : first.Present reg) :
    second.Present reg := by
  obtain ⟨id, defined⟩ := present
  exact ⟨id, within.defines defined⟩

theorem knownAt (within : Within first second) (known : first.KnownAt avail id reg) :
    second.KnownAt avail id reg := by
  rcases known with available | ⟨inner, inst, member, slot, same⟩
  · exact Or.inl available
  · exact Or.inr ⟨inner, inst, within.code _ inst member, slot, same⟩

theorem knownAfter (within : Within first second) (known : first.KnownAfter avail id reg) :
    second.KnownAfter avail id reg := by
  rcases known with known | defined
  · exact Or.inl (within.knownAt known)
  · exact Or.inr (within.defines defined)

theorem readable (within : Within first second) {value : Value}
    (readable : value.Readable first.params (first.KnownAfter avail id)) :
    value.Readable second.params (second.KnownAfter avail id) := by
  rw [within.params]
  exact readable.mono fun _ => within.knownAfter

end Within

/-! ### Adding -/

namespace Certified

variable {function second : Function} {avail : BlockId → Register → Prop} {id : BlockId}
  {inst : Instruction} {before after : List Instruction}

/-- A phi stays certified where it still begins its block and all it reads is still set. -/
theorem phi_carried {incoming : List (Value × BlockId)} {avail' : BlockId → Register → Prop}
    (phi : PhiCertified function avail id inst incoming)
    (exit : ∀ other, second.exit? other = function.exit? other)
    (first : (second.code id).head? = some inst)
    (values : ∀ arm ∈ incoming, arm.1.Readable second.params (second.KnownAfter avail' arm.2)) :
    PhiCertified second avail' id inst incoming where
  inner := phi.inner
  first := first
  once := phi.once
  blocks source := (phi.blocks source).trans (Function.precedes_of_exits exit).symm
  values := values

/-- A new block may take any registers that are set somewhere. -/
theorem addBlock (certified : Certified function avail)
    (started : function.blocks.isEmpty = false) (hint : String) {known : Register → Prop}
    (present : ∀ reg, known reg → function.Present reg) :
    Certified (function.addBlock hint)
      (fun id reg => if id = function.nextBlock then known reg else avail id reg) := by
  have code := Function.code_addBlock started hint
  have exit := Function.exit?_addBlock started hint
  have params := Function.params_addBlock function hint
  have defines : ∀ id reg, (function.addBlock hint).Defines id reg ↔ function.Defines id reg :=
    fun id reg => by rw [Function.Defines, Function.Defines, code]
  have knownAt : ∀ other, other ≠ function.nextBlock → ∀ reg, (function.addBlock hint).KnownAt
      (fun id reg => if id = function.nextBlock then known reg else avail id reg) other reg ↔
        function.KnownAt avail other reg := fun other differs reg => by
    rw [Function.KnownAt, Function.KnownAt, if_neg differs, Function.IsSlot, Function.IsSlot, code]
  -- a block that is left is an old one, and knows what it knew
  have knownAfter : ∀ {other terminator}, function.exit? other = some terminator → ∀ reg,
      function.KnownAfter avail other reg → (function.addBlock hint).KnownAfter
        (fun id reg => if id = function.nextBlock then known reg else avail id reg) other reg := by
    intro other terminator found reg
    rw [Function.KnownAfter, Function.KnownAfter,
      knownAt other (Function.ne_nextBlock_of_exit started found), defines]
    exact id
  have entered : ∀ id target, function.Precedes id target → target ≠ function.nextBlock := by
    rintro id _ edge rfl
    have found := (certified.inner id _ edge).2
    rw [Function.block?_nextBlock started] at found
    cases found
  exact {
    distinct := fun id => by
      rw [code]
      exact certified.distinct id
    apart := fun id id' => by
      rw [code, code]
      exact certified.apart id id'
    ordered := fun id => by
      rw [code, params]
      by_cases new : id = function.nextBlock
      · rw [new, Function.code_nextBlock started]
        trivial
      · exact (certified.ordered id).mono fun reg => (knownAt id new reg).2
    closing := fun id terminator found value member => by
      rw [exit] at found
      rw [params]
      exact (certified.closing id terminator found value member).mono (knownAfter found)
    inner := fun id target edge => by
      rw [Function.precedes_of_exits exit] at edge
      refine ⟨(certified.inner id target edge).1, ?_⟩
      rw [Function.block?_addBlock started, if_neg (entered id target edge)]
      exact (certified.inner id target edge).2
    edges := fun id target edge reg available => by
      rw [Function.precedes_of_exits exit] at edge
      rw [if_neg (entered id target edge)] at available
      have known := certified.edges id target edge reg available
      obtain ⟨terminator, found, _⟩ := edge
      exact knownAfter found reg known
    elsewhere := fun id reg available => by
      simp only [defines]
      split_ifs at available with new
      · obtain ⟨id', inst, member, same⟩ := present reg available
        exact ⟨id', fun equal => Function.ne_nextBlock_of_code started member (equal.trans new), inst,
          member, same⟩
      · exact certified.elsewhere id reg available
    entry := fun reg available => by
      rw [if_neg (Function.nextBlock_ne_entry started).symm] at available
      exact certified.entry reg available
    phis := fun id inst incoming member op => by
      rw [code] at member
      have phi := certified.phis id inst incoming member op
      refine phi_carried phi exit (by rw [code]; exact phi.first) fun arm arms => ?_
      rw [params]
      obtain ⟨terminator, found, _⟩ := (phi.blocks arm.2).1 (List.mem_map_of_mem arms)
      exact (phi.values arm arms).mono (knownAfter found) }

/-- A new instruction may stand where all it reads is set, unless it pushes a phi away from the
front. -/
theorem add (certified : Certified function avail) (within : Within function second)
    (split : function.code id = before ++ after)
    (code : ∀ other, second.code other =
      if other = id then before ++ inst :: after else function.code other)
    (exit : ∀ other, second.exit? other = function.exit? other)
    (blocks : ∀ other, (second.block? other).isSome = (function.block? other).isSome)
    (fresh : ¬ function.Names inst.name)
    (reads : inst.op.isPhi = false → ∀ value ∈ inst.op.operands, value.Readable function.params
      fun reg => function.KnownAt avail id reg ∨ ∃ earlier ∈ before, earlier.register = reg)
    (phi : ∀ incoming, inst.op = .phi incoming → PhiCertified second avail id inst incoming)
    (front : before = [] → id = Function.entryId ∨ after = []) : Certified second avail := by
  have member : ∀ {other found}, found ∈ second.code other →
      found ∈ function.code other ∨ other = id ∧ found = inst := by
    intro other found inside
    rw [code] at inside
    split_ifs at inside with same
    · rw [same, split]
      simp only [List.mem_append, List.mem_cons] at inside ⊢
      tauto
    · exact Or.inl inside
  have absent : ∀ other, ∀ found ∈ function.code other, found.name ≠ inst.name :=
    fun other found inside same => fresh ⟨found.ty, other, found, inside, by rw [← same]; rfl⟩
  -- a phi that was first in its block is not pushed away
  have first : ∀ other found incoming, PhiCertified function avail other found incoming →
      (second.code other).head? = some found := by
    intro other found incoming earlier
    rw [code]
    split_ifs with same
    · subst same
      have first := split ▸ earlier.first
      cases before with
      | nil =>
        rcases front rfl with entry | rfl
        · exact absurd entry earlier.inner
        · cases first
      | cons head rest => exact first
    · exact earlier.first
  exact {
    distinct := fun other => by
      rw [code]
      split_ifs with same
      · rw [List.map_append, List.map_cons, List.nodup_middle, List.nodup_cons, ← List.map_append,
          ← split]
        refine ⟨fun inside => ?_, certified.distinct id⟩
        obtain ⟨found, inside, same⟩ := List.mem_map.1 inside
        exact absent id found inside same
      · exact certified.distinct other
    apart := fun first last found inside found' inside' same => by
      rcases member inside with old | ⟨rfl, rfl⟩ <;> rcases member inside' with old' | ⟨rfl, rfl⟩
      · exact certified.apart first last found old found' old' same
      · exact absurd same (absent first found old)
      · exact absurd same.symm (absent last found' old')
      · rfl
    ordered := fun other => by
      rw [within.params]
      refine InOrder.mono ?_ fun reg => within.knownAt
      rw [code]
      split_ifs with same
      · subst same
        have ordered := split ▸ certified.ordered other
        rw [InOrder.append_iff] at ordered ⊢
        exact ⟨ordered.1, reads, ordered.2.mono fun _ => Or.inl⟩
      · exact certified.ordered other
    closing := fun other terminator closed value operand => by
      rw [exit] at closed
      exact within.readable (certified.closing other terminator closed value operand)
    inner := fun source target edge => by
      rw [Function.precedes_of_exits exit] at edge
      rw [blocks]
      exact certified.inner source target edge
    edges := fun source target edge reg available => by
      rw [Function.precedes_of_exits exit] at edge
      exact within.knownAfter (certified.edges source target edge reg available)
    elsewhere := fun other reg available => by
      obtain ⟨other', differs, defined⟩ := certified.elsewhere other reg available
      exact ⟨other', differs, within.defines defined⟩
    entry := certified.entry
    phis := fun other found incoming inside op => by
      rcases member inside with old | ⟨rfl, rfl⟩
      · have earlier := certified.phis other found incoming old op
        exact phi_carried earlier exit (first other found incoming earlier) fun arm arms =>
          within.readable (earlier.values arm arms)
      · exact phi incoming op }

variable {block : Block}

theorem within_append (found : function.block? id = some block) (inst : Instruction) :
    Within function (function.modifyBlock id fun found => found.append inst) := by
  refine ⟨rfl, fun other found' member => ?_⟩
  rw [Function.code_append found]
  split_ifs with same
  · exact List.mem_append_left _ (same ▸ member)
  · exact member

/-- An instruction at the end of a block reads what is set there. -/
theorem append (certified : Certified function avail) (found : function.block? id = some block)
    (fresh : ¬ function.Names inst.name) (plain : inst.op.isPhi = false)
    (reads : ∀ value ∈ inst.op.operands,
      value.Readable function.params (function.KnownAfter avail id)) :
    Certified (function.modifyBlock id fun found => found.append inst) avail := by
  refine certified.add (within_append found inst) (List.append_nil _).symm
    (Function.code_append found inst)
    (fun other => Function.exit?_modifyBlock_of_same function id other fun _ => rfl)
    (fun other => Function.isSome_block?_modifyBlock function id other _) fresh
    (fun _ => reads) (fun incoming op => ?_) fun _ => Or.inr rfl
  rw [op] at plain
  cases plain

/-- A phi at the beginning of a block takes one value from each block before it. -/
theorem appendPhi (certified : Certified function avail) (found : function.block? id = some block)
    (fresh : ¬ function.Names inst.name) {incoming : List (Value × BlockId)}
    (op : inst.op = .phi incoming) (inner : id ≠ Function.entryId)
    (bare : function.code id = []) (once : (incoming.map Prod.snd).Nodup)
    (blocks : ∀ source, source ∈ incoming.map Prod.snd ↔ function.Precedes source id)
    (values : ∀ arm ∈ incoming,
      arm.1.Readable function.params (function.KnownAfter avail arm.2)) :
    Certified (function.modifyBlock id fun found => found.append inst) avail := by
  have exit : ∀ other, (function.modifyBlock id fun found => found.append inst).exit? other =
      function.exit? other :=
    fun other => Function.exit?_modifyBlock_of_same function id other fun _ => rfl
  refine certified.add (within_append found inst) (List.append_nil _).symm
    (Function.code_append found inst) exit
    (fun other => Function.isSome_block?_modifyBlock function id other _) fresh
    (fun plain => ?_) (fun incoming' op' => ?_) fun _ => Or.inr rfl
  · rw [op] at plain
    cases plain
  · obtain rfl : incoming = incoming' := Operation.phi.inj (op.symm.trans op')
    refine ⟨inner, ?_, once, fun source => ?_, fun arm arms =>
      (within_append found inst).readable (values arm arms)⟩
    · rw [Function.code_append found, if_pos rfl, bare]
      rfl
    · rw [Function.Precedes, exit]
      exact blocks source

theorem within_insert (found : function.block? id = some block) (position : Nat)
    (inst : Instruction) :
    Within function (function.modifyBlock id fun found => found.insert position inst) := by
  refine ⟨rfl, fun other found' member => ?_⟩
  rw [Function.code_insert found]
  split_ifs with same
  · subst same
    rw [← List.take_append_drop position (function.code other)] at member
    simp only [List.mem_append, List.mem_cons] at member ⊢
    tauto
  · exact member

/-- A stack slot may be added anywhere in the entry block. -/
theorem insertSlot (certified : Certified function avail)
    (found : function.block? Function.entryId = some block) (position : Nat)
    (fresh : ¬ function.Names inst.name) (slot : inst.op.isAlloca = true) :
    Certified (function.modifyBlock Function.entryId fun found => found.insert position inst)
      avail := by
  refine certified.add (within_insert found position inst)
    (List.take_append_drop position _).symm (Function.code_insert found position inst)
    (fun other => Function.exit?_modifyBlock_of_same function _ other fun _ => rfl)
    (fun other => Function.isSome_block?_modifyBlock function _ other _) fresh
    (fun _ value operand => ?_) (fun incoming op => ?_) fun _ => Or.inl rfl
  · cases op : inst.op <;> rw [op] at slot operand <;> cases slot
    cases operand
  · rw [op] at slot
    cases slot

/-! ### Dropping and closing -/

/-- An instruction whose result nothing reads may be dropped. -/
theorem drop (certified : Certified function avail) {name : ValueName}
    (params : second.params = function.params)
    (code : ∀ other, second.code other = (function.code other).filter fun inst => inst.name ≠ name)
    (exit : ∀ other, second.exit? other = function.exit? other)
    (blocks : ∀ other, (second.block? other).isSome = (function.block? other).isSome)
    (unused : function.Unused name) :
    Certified second fun id reg => avail id reg ∧ reg.1 ≠ name := by
  have member : ∀ {other found}, found ∈ second.code other ↔
      found ∈ function.code other ∧ found.name ≠ name := by
    intro other found
    rw [code, List.mem_filter, decide_eq_true_iff]
  have defines : ∀ {other reg}, function.Defines other reg → reg.1 ≠ name →
      second.Defines other reg := by
    rintro other reg ⟨found, inside, rfl⟩ differs
    exact ⟨found, member.2 ⟨inside, differs⟩, rfl⟩
  have knownAt : ∀ {other reg}, function.KnownAt avail other reg ∧ reg.1 ≠ name →
      second.KnownAt (fun id reg => avail id reg ∧ reg.1 ≠ name) other reg := by
    rintro other reg ⟨available | ⟨inner, found, inside, slot, rfl⟩, differs⟩
    · exact Or.inl ⟨available, differs⟩
    · exact Or.inr ⟨inner, found, member.2 ⟨inside, differs⟩, slot, rfl⟩
  have knownAfter : ∀ {other reg}, function.KnownAfter avail other reg → reg.1 ≠ name →
      second.KnownAfter (fun id reg => avail id reg ∧ reg.1 ≠ name) other reg := by
    rintro other reg (known | defined) differs
    · exact Or.inl (knownAt ⟨known, differs⟩)
    · exact Or.inr (defines defined differs)
  have readable : ∀ {other} {value : Value}, value.regName? ≠ some name →
      value.Readable function.params (function.KnownAfter avail other) →
      value.Readable second.params
        (second.KnownAfter (fun id reg => avail id reg ∧ reg.1 ≠ name) other) := by
    intro other value differs readable
    rw [params]
    cases value <;> simp only [Value.Readable] at readable ⊢
    · exact knownAfter readable fun same => differs (congrArg some same)
    · exact readable
  exact {
    distinct := fun other => by
      rw [code]
      exact (certified.distinct other).sublist (List.Sublist.map _ List.filter_sublist)
    apart := fun first last found inside found' inside' =>
      certified.apart first last found (member.1 inside).1 found' (member.1 inside').1
    ordered := fun other => by
      rw [code, params]
      exact ((certified.ordered other).forget (unused.code other)).mono fun reg => knownAt
    closing := fun other terminator closed value operand => by
      rw [exit] at closed
      exact readable (unused.exits other terminator closed value operand)
        (certified.closing other terminator closed value operand)
    inner := fun source target edge => by
      rw [Function.precedes_of_exits exit] at edge
      rw [blocks]
      exact certified.inner source target edge
    edges := fun source target edge reg available => by
      rw [Function.precedes_of_exits exit] at edge
      exact knownAfter (certified.edges source target edge reg available.1) available.2
    elsewhere := fun other reg available => by
      obtain ⟨other', differs, defined⟩ := certified.elsewhere other reg available.1
      exact ⟨other', differs, defines defined available.2⟩
    entry := fun reg available => certified.entry reg available.1
    phis := fun other found incoming inside op => by
      have earlier := certified.phis other found incoming (member.1 inside).1 op
      refine phi_carried earlier exit ?_ fun arm arms => readable (fun reads => ?_)
        (earlier.values arm arms)
      · obtain ⟨rest, split⟩ := List.head?_eq_some_iff.1 earlier.first
        rw [code, split, List.filter_cons_of_pos (by simpa using (member.1 inside).2)]
        rfl
      · have unread := unused.code other found (member.1 inside).1
        simp only [Instruction.uses, op, Operation.operands, List.any_eq_false, beq_iff_eq] at unread
        exact unread arm.1 (List.mem_map_of_mem arms) reads }

/-- An open block may be closed with a terminator that reads what is set there and goes to blocks
without a phi that take no more than what is set there. -/
theorem terminate (certified : Certified function avail) (found : function.block? id = some block)
    (opened : function.exit? id = none) {terminator : Terminator}
    (reads : ∀ value ∈ terminator.operands,
      value.Readable function.params (function.KnownAfter avail id))
    (inner : ∀ target ∈ terminator.successors,
      target ≠ Function.entryId ∧ (function.block? target).isSome)
    (phiFree : ∀ target ∈ terminator.successors, function.PhiFree target)
    (known : ∀ target ∈ terminator.successors, ∀ reg, avail target reg →
      function.KnownAfter avail id reg) :
    Certified (function.modifyBlock id fun found => found.terminate terminator) avail := by
  have code := fun other => Function.code_terminate function id other terminator
  have exit := Function.exit?_terminate found terminator
  have within : Within function (function.modifyBlock id fun found => found.terminate terminator) :=
    ⟨rfl, fun other inst member => by rwa [code]⟩
  have precedes := @Function.precedes_terminate function id block found opened terminator
  exact {
    distinct := fun other => by
      rw [code]
      exact certified.distinct other
    apart := fun first last => by
      rw [code, code]
      exact certified.apart first last
    ordered := fun other => by
      rw [code]
      exact (certified.ordered other).mono fun reg => within.knownAt
    closing := fun other terminator' closed value operand => by
      rw [exit] at closed
      split_ifs at closed with same
      · cases closed
        rw [same]
        exact within.readable (reads value operand)
      · exact within.readable (certified.closing other terminator' closed value operand)
    inner := fun source target edge => by
      rw [Function.isSome_block?_modifyBlock]
      rcases precedes.1 edge with old | ⟨_, successor⟩
      · exact certified.inner source target old
      · exact inner target successor
    edges := fun source target edge reg available => by
      rcases precedes.1 edge with old | ⟨rfl, successor⟩
      · exact within.knownAfter (certified.edges source target old reg available)
      · exact within.knownAfter (known target successor reg available)
    elsewhere := fun other reg available => by
      obtain ⟨other', differs, defined⟩ := certified.elsewhere other reg available
      exact ⟨other', differs, within.defines defined⟩
    entry := certified.entry
    phis := fun other inst incoming member op => by
      rw [code] at member
      have earlier := certified.phis other inst incoming member op
      refine ⟨earlier.inner, by rw [code]; exact earlier.first, earlier.once, fun source => ?_,
        fun arm arms => within.readable (earlier.values arm arms)⟩
      rw [earlier.blocks, precedes]
      refine ⟨Or.inl, ?_⟩
      rintro (old | ⟨_, successor⟩)
      · exact old
      · have plain := phiFree other successor inst member
        rw [op] at plain
        cases plain }

end Certified

end TreeLowering.Ir
