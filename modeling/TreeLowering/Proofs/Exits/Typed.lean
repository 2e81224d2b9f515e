/-
This file follows the types of what is joined and returned while a body is built. A module is typed
when every phi joins values of its own type and every return gives the type that its function
promises. Each step of the builder keeps this, as long as what lowering joins and returns has the
right type; this is a steady regime.
-/

import TreeLowering.Proofs.Blame
import TreeLowering.Proofs.Regime.Returned

namespace TreeLowering.Ir

/-! ### Typed modules -/

/-- What the block joins has the type of the phi, and what it returns has the type that is
promised, unless nothing is. -/
structure Block.Typed (ret : Ty) (block : Block) : Prop where
  joins : ∀ inst ∈ block.insts.toList, ∀ incoming, inst.op = .phi incoming →
    ∀ pair ∈ incoming, pair.1.ty = inst.ty
  exit : ret.isVoid = false → ∀ value, block.terminator = some (.ret value) →
    ∃ result, value = some result ∧ result.ty = ret

def Function.Typed (function : Function) : Prop :=
  ∀ id block, function.block? id = some block → block.Typed function.ret

def Module.Typed (target : Module) : Prop :=
  ∀ func function, target.function? func = some function → function.Typed

namespace Block.Typed

variable {ret : Ty} {block : Block}

theorem fresh (id : BlockId) (label : String) : (Block.fresh id label).Typed ret :=
  ⟨List.forall_mem_nil _, fun _ _ closed => by cases closed⟩

/-- Only a new phi matters among new instructions. -/
theorem of_insts {changed : Block} (typed : block.Typed ret)
    (terminator : changed.terminator = block.terminator)
    (insts : ∀ inst ∈ changed.insts.toList, inst ∈ block.insts.toList ∨
      ∀ incoming, inst.op = .phi incoming → ∀ pair ∈ incoming, pair.1.ty = inst.ty) :
    changed.Typed ret := by
  refine ⟨fun inst member => ?_, fun promised value closed => ?_⟩
  · rcases insts inst member with old | new
    · exact typed.joins inst old
    · exact new
  · rw [terminator] at closed
    exact typed.exit promised value closed

theorem append (typed : block.Typed ret) {inst : Instruction}
    (joins : ∀ incoming, inst.op = .phi incoming → ∀ pair ∈ incoming, pair.1.ty = inst.ty) :
    (block.append inst).Typed ret := by
  refine typed.of_insts rfl fun other member => ?_
  rw [Function.insts_append] at member
  rcases List.mem_append.1 member with old | new
  · exact .inl old
  · cases List.mem_singleton.1 new
    exact .inr joins

/-- A stack slot joins nothing. -/
theorem insert (typed : block.Typed ret) (position : Nat) {inst : Instruction}
    (slot : inst.op.isAlloca = true) : (block.insert position inst).Typed ret := by
  refine typed.of_insts rfl fun other member => ?_
  rw [Function.insts_insert] at member
  rcases List.mem_append.1 member with early | late
  · exact .inl (List.mem_of_mem_take early)
  · rcases List.mem_cons.1 late with rfl | late
    · refine .inr fun incoming phi => ?_
      rw [phi] at slot
      cases slot
    · exact .inl (List.mem_of_mem_drop late)

theorem remove (typed : block.Typed ret) (position : Nat) : (block.remove position).Typed ret := by
  refine typed.of_insts rfl fun other member => ?_
  rw [Function.insts_remove] at member
  exact .inl (List.mem_of_mem_eraseIdx member)

theorem terminate (typed : block.Typed ret) {terminator : Terminator}
    (exits : ret.isVoid = false → ∀ value, terminator = .ret value →
      ∃ result, value = some result ∧ result.ty = ret) : (block.terminate terminator).Typed ret :=
  ⟨typed.joins, fun promised value closed => exits promised value (Option.some.inj closed)⟩

end Block.Typed

namespace Function.Typed

variable {function : Function}

theorem modifyBlock (typed : function.Typed) (id : BlockId) {change : Block → Block}
    (keeps : ∀ block, block.Typed function.ret → (change block).Typed function.ret) :
    (function.modifyBlock id change).Typed := by
  intro other block found
  rw [block?_modifyBlock] at found
  split_ifs at found
  · obtain ⟨old, stored, rfl⟩ := Option.map_eq_some_iff.1 found
    exact keeps old (typed other old stored)
  · exact typed other block found

/-- A function without blocks joins and returns nothing. -/
theorem of_declaration (bare : function.isDeclaration = true) : function.Typed := by
  intro id block found
  rw [block?, Array.isEmpty_iff.1 bare] at found
  cases found

theorem withEntry (typed : function.Typed) : function.withEntry.Typed := by
  unfold Function.withEntry
  split
  · intro id block found
    rw [block?, List.getElem?_toArray, List.getElem?_singleton] at found
    split_ifs at found
    cases found
    exact .fresh _ _
  · exact typed

theorem addBlock (typed : function.Typed) (hint : String) : (function.addBlock hint).Typed := by
  intro id block found
  have ret : (function.addBlock hint).ret = function.withEntry.ret := rfl
  unfold block? Function.addBlock at found
  dsimp only at found
  rw [Array.getElem?_push] at found
  rw [ret]
  split_ifs at found
  · cases found
    exact .fresh _ _
  · exact typed.withEntry id block found

end Function.Typed

@[simp] theorem Function.ret_addBlock (function : Function) (hint : String) :
    (function.addBlock hint).ret = function.ret := function.ret_withEntry

namespace Module.Typed

variable {target : Module}

theorem modifyFunction (typed : target.Typed) (func : FuncId) {change : Function → Function}
    {named : ∀ function, (change function).name = function.name}
    (keeps : ∀ function, target.function? func = some function → function.Typed →
      (change function).Typed) :
    (target.modifyFunction func change named).Typed := by
  intro other function found
  rw [function?_modifyFunction] at found
  split_ifs at found with here
  · subst here
    obtain ⟨old, stored, rfl⟩ := Option.map_eq_some_iff.1 found
    exact keeps old stored (typed _ old stored)
  · exact typed other function found

/-- Functions that are only declared return nothing yet. -/
theorem declares (typed : target.Typed) {second : Module} (declares : target.Declares second) :
    second.Typed := by
  intro func function found
  cases old : target.function? func with
  | none => exact .of_declaration (declares.added func function old found)
  | some function' =>
    cases (declares.kept func function' old).symm.trans found
    exact typed func _ old

end Module.Typed

end TreeLowering.Ir

namespace TreeLowering.Lowering

open TreeLowering.Ir TreeLowering.Tree

/-! ### The state of a run -/

/-- A declared function promises what its declaration says. -/
def Signed (source : Source) (target : Module) (pair : FunctionDecl × FuncId) : Prop :=
  ∃ function, target.function? pair.2 = some function ∧
    function.ret = source.translation pair.1.ret

/-- What holds whenever no step is under way, once the functions in `declared` are declared. -/
structure Settled (source : Source) (declared : List (FunctionDecl × FuncId)) (target : Module)
    (memo : TypeMemo) : Prop where
  truthful : TypeState.Truthful source ⟨memo, target⟩
  idle : memo.pending = []
  typed : target.Typed
  signed : ∀ pair ∈ declared, Signed source target pair

namespace Settled

variable {source : Source} {declared : List (FunctionDecl × FuncId)} {target second : Module}
  {memo : TypeMemo}

theorem edit (settled : Settled source declared target memo) (func : FuncId)
    {change : Function → Function} (named : ∀ function, (change function).name = function.name)
    (ret : ∀ function, (change function).ret = function.ret)
    (keeps : ∀ function, target.function? func = some function → function.Typed →
      (change function).Typed) :
    Settled source declared (target.modifyFunction func change named) memo := by
  refine ⟨settled.truthful.of_types rfl, settled.idle, settled.typed.modifyFunction func keeps,
    fun pair member => ?_⟩
  obtain ⟨function, found, promised⟩ := settled.signed pair member
  rw [Signed, Module.function?_modifyFunction]
  split_ifs with here
  · exact ⟨change function, by rw [found, Option.map_some], (ret function).trans promised⟩
  · exact ⟨function, found, promised⟩

theorem editBlock (settled : Settled source declared target memo) (func : FuncId) (id : BlockId)
    {change : Block → Block}
    (keeps : ∀ function, target.function? func = some function → ∀ block,
      block.Typed function.ret → (change block).Typed function.ret) :
    Settled source declared (target.modifyBlock func id change) memo :=
  settled.edit func (fun function => function.name_modifyBlock id change) (fun _ => rfl)
    fun function found typed =>
    typed.modifyBlock id (keeps function found)

theorem withEntry (settled : Settled source declared target memo) (func : FuncId) :
    Settled source declared (target.modifyFunction func Function.withEntry) memo :=
  settled.edit func Function.name_withEntry Function.ret_withEntry fun _ _ typed => typed.withEntry

/-- Declarations may be added, and types remembered. -/
theorem extend (settled : Settled source declared target memo) {memo' : TypeMemo}
    (declares : target.Declares second) (truthful : TypeState.Truthful source ⟨memo', second⟩)
    (idle : memo'.pending = []) : Settled source declared second memo' := by
  refine ⟨truthful, idle, settled.typed.declares declares, fun pair member => ?_⟩
  obtain ⟨function, found, promised⟩ := settled.signed pair member
  exact ⟨function, declares.kept _ _ found, promised⟩

theorem declares (settled : Settled source declared target memo)
    (declares : target.Declares second) (types : second.types = target.types) :
    Settled source declared second memo :=
  settled.extend declares (settled.truthful.of_types types) settled.idle

end Settled

/-- The function was declared with this return type. -/
def Promises (source : Source) (declared : List (FunctionDecl × FuncId)) (ret : Ty)
    (func : FuncId) : Prop :=
  ∃ decl, (decl, func) ∈ declared ∧ source.translation decl.ret = ret

/-- What holds at every point of a body that returns `ret`. -/
structure Building (source : Source) (declared : List (FunctionDecl × FuncId)) (ret : Ty)
    (builder : Builder) (memo : TypeMemo) : Prop where
  settled : Settled source declared builder.target memo
  current : ∀ func, builder.current = some func → Promises source declared ret func
  cursor : ∀ cursor, builder.cursor = some cursor → Promises source declared ret cursor.func

namespace Building

variable {source : Source} {declared : List (FunctionDecl × FuncId)} {ret : Ty}
  {builder : Builder} {memo : TypeMemo}

theorem ret_eq (building : Building source declared ret builder memo) {cursor : Cursor}
    (positioned : builder.cursor = some cursor) {function : Function}
    (found : builder.target.function? cursor.func = some function) : function.ret = ret := by
  obtain ⟨decl, member, promised⟩ := building.cursor cursor positioned
  obtain ⟨function', found', signed⟩ := building.settled.signed _ member
  cases found.symm.trans found'
  exact signed.trans promised

theorem emit (building : Building source declared ret builder memo) {op : Operation} {ty : Ty}
    (joins : ∀ incoming, op = .phi incoming → ∀ pair ∈ incoming, pair.1.ty = ty) :
    Returns (Build.emitTemp op ty) builder fun _ after =>
      Building source declared ret after memo := by
  refine Build.returns_emitTemp fun cursor _ _ => ⟨?_, building.current, building.cursor⟩
  exact building.settled.editBlock _ _ fun _ _ _ typed => typed.append joins

theorem reserve (building : Building source declared ret builder memo) (ty : Ty)
    (variableName : Option String) :
    Returns (Build.alloca ty variableName) builder fun _ after =>
      Building source declared ret after memo := by
  refine Build.returns_alloca fun func name start current named => ⟨?_, ?_, ?_⟩
  · show Settled _ _ ((start.target.modifyFunction func Function.withEntry).modifyBlock ..) _
    rw [named.target]
    exact (building.settled.withEntry func).editBlock _ _ fun _ _ _ typed => typed.insert _ rfl
  · intro func current
    exact building.current func (named.current ▸ current)
  · intro cursor positioned
    exact building.cursor cursor (named.cursor ▸ positioned)

theorem declare (building : Building source declared ret builder memo) {name : String}
    {params : List Ir.Param} {promised : Ty} :
    Returns (Build.declare fun target => target.declareFunction name params promised) builder
      fun _ after => Building source declared ret after memo :=
  Build.returns_declare fun _ _ added =>
    ⟨building.settled.declares (Module.declareFunction_spec added).1
      (Module.declareFunction_elsewhere added).1, building.current, building.cursor⟩

theorem store (building : Building source declared ret builder memo) (address value : Value) :
    Returns (Build.store address value) builder fun _ after =>
      Building source declared ret after memo :=
  Build.returns_store building
    (fun building plain => building.emit fun incoming phi => by
      rw [phi] at plain
      cases plain)
    (fun building => building.declare) fun {cursor position _} _ =>
      ⟨building.settled.editBlock cursor.func cursor.block fun _ _ _ typed =>
        typed.remove position, building.current, building.cursor⟩

theorem newBlock (building : Building source declared ret builder memo) (hint : String) :
    Returns (Build.newBlock hint) builder fun _ after =>
      Building source declared ret after memo := by
  refine Build.returns_newBlock fun func _ _ _ => ⟨?_, building.current, building.cursor⟩
  exact building.settled.edit func (fun function => function.name_addBlock hint)
    (fun function => function.ret_addBlock hint) fun _ _ typed => typed.addBlock hint

theorem terminate (building : Building source declared ret builder memo) {terminator : Terminator}
    (exits : ∀ value, terminator = .ret value → ret.isVoid = false →
      ∃ result, value = some result ∧ result.ty = ret) :
    Returns (Build.terminate terminator) builder fun _ after =>
      Building source declared ret after memo := by
  refine Build.returns_terminate fun cursor positioned _ =>
    ⟨?_, building.current, fun _ impossible => by cases impossible⟩
  refine building.settled.editBlock _ _ fun function found block typed => ?_
  rw [building.ret_eq positioned found] at typed ⊢
  exact typed.terminate fun promised value closes => exits value closes promised

theorem positionAt (settled : Settled source declared builder.target memo) {func : FuncId}
    (promises : Promises source declared ret func) (block : BlockId) :
    Returns (Build.positionAt func block) builder fun _ after =>
      Building source declared ret after memo := by
  refine Build.returns_positionAt fun target same opened => ?_
  subst same
  obtain ⟨function, _, found, _⟩ := Module.checkOpen_ok opened
  have entered : ∀ start : Builder, start.target.function? func = some function →
      (start.enter func).target = start.target ∧ (start.enter func).current = some func := by
    intro start found
    unfold Builder.enter
    split_ifs with here
    · exact ⟨rfl, here⟩
    · rw [found]
      exact ⟨rfl, rfl⟩
  obtain ⟨kept, current⟩ := entered
    { builder with target := builder.target.modifyFunction func Function.withEntry } found
  refine ⟨?_, fun func' current' => ?_, fun cursor positioned => ?_⟩
  · show Settled _ _ (Builder.enter _ func).target _
    rw [kept]
    exact settled.withEntry func
  · cases current.symm.trans current'
    exact promises
  · cases positioned
    exact promises

end Building

/-! ### The regime -/

/-- The rules of a body that returns `ret`, where an expression yields what `yields` says. -/
def Regime.typed (source : Source) (declared : List (FunctionDecl × FuncId)) (ret : Ty)
    (yields : ExprId → Value → Prop) : Regime where
  holds builder memo := Building source declared ret builder memo
  excused _ := True
  frames frames := ∀ frame, frames.head? = some frame → frame.ret = ret
  mine func := Promises source declared ret func
  own _ := True
  free _ := True
  mapped ty mapped := mapped = source.translation ty
  yields := yields
  joins ty incoming := ∀ pair ∈ incoming, pair.1.ty = ty
  answers promised := promised = ret
  returns value := ret.isVoid = false → ∃ result, value = some result ∧ result.ty = ret

theorem Regime.typed.steady {source : Source} {declared : List (FunctionDecl × FuncId)} {ret : Ty}
    {yields : ExprId → Value → Prop} (formed : source.WellFormed) :
    (Regime.typed source declared ret yields).Steady source where
  pardons _ _ := trivial
  current building current := building.current _ current
  here _ _ := trivial
  emits building joined := building.emit joined
  reserves building := building.reserve _ _
  stores building := building.store _ _
  pins building := Build.returns_pin fun _ =>
    ⟨building.settled, building.current, building.cursor⟩
  opens building := (building.newBlock _).mono fun _ _ kept => ⟨kept, trivial, trivial⟩
  moves building promises _ := Building.positionAt building.settled promises _
  closes building _ exits := building.terminate exits
  declares building := building.declare
  defines building := Build.returns_declare fun _ _ added =>
    ⟨building.settled.declares (.of_functions (Module.declareGlobal_elsewhere added).2)
      (Module.declareGlobal_elsewhere added).1, building.current, building.cursor⟩
  maps {builder memo} ty building := by
    have functions := (ensures_mapTypeWithin source source.typeDepth ty ⟨memo, builder.target⟩).ends
    have types := ends_mapType formed.mappable building.settled.truthful building.settled.idle ty
    refine (types.and functions).mono (fun mapped after kept => ?_) fun _ _ _ => trivial
    obtain ⟨⟨⟨truthful, idle⟩, right⟩, same⟩ := kept
    exact ⟨⟨building.settled.extend (.of_functions same.functions) truthful idle, building.current,
      building.cursor⟩, right⟩
  loops {env targets} _ _ frames := by
    obtain ⟨scopes, frames'⟩ := env
    cases frames' with
    | nil => exact frames
    | cons frame outer =>
      intro _ first
      cases first
      exact frames frame rfl
  targets _ _ := trivial
  answers {env promised} frames found := by
    obtain ⟨frame, first, rfl⟩ := Option.map_eq_some_iff.1 found
    exact frames frame first

end TreeLowering.Lowering
