/-
This file proves which names the builder gives to the results of instructions, however it is used. No
slot has the name of a parameter. And the results of a function are named apart, as long as the
builder does not come back to the function from another one: what was kept for a function is
forgotten when it is left, so that its names would be given out once more.
-/

import Mathlib
import TreeLowering.Proofs.Builder.Edit

namespace TreeLowering.Ir

/-! ### Results -/

/-- The names of all instruction results of a function. -/
def Function.results (function : Function) : List ValueName :=
  (function.blocks.toList.flatMap fun block => block.insts.toList).map Instruction.name

namespace Function

theorem results_withEntry (function : Function) : function.withEntry.results = function.results := by
  unfold withEntry
  split
  · next bare =>
    rw [results, results, Array.isEmpty_iff.1 bare]
    rfl
  · rfl

theorem results_addBlock (function : Function) (hint : String) :
    (function.addBlock hint).results = function.results := by
  rw [← results_withEntry function]
  unfold addBlock results
  dsimp only
  rw [Array.toList_push, List.flatMap_append]
  simp [Block.fresh]

theorem results_of_declaration {function : Function} (bare : function.isDeclaration = true) :
    function.results = [] := by
  rw [results, Array.isEmpty_iff.1 bare]
  rfl

/-- The results of a block stand somewhere among those of its function. -/
theorem results_modifyBlock (function : Function) (id : BlockId) (change : Block → Block) :
    (function.modifyBlock id change).results = function.results ∨
      ∃ block before behind,
        function.results = before ++ (block.insts.toList.map Instruction.name ++ behind) ∧
        (function.modifyBlock id change).results =
          before ++ ((change block).insts.toList.map Instruction.name ++ behind) := by
  unfold results modifyBlock
  dsimp only
  rw [Array.toList_modify]
  by_cases bound : id.index < function.blocks.toList.length
  · refine .inr ⟨function.blocks.toList[id.index],
      ((function.blocks.toList.take id.index).flatMap fun block => block.insts.toList).map
        Instruction.name,
      ((function.blocks.toList.drop (id.index + 1)).flatMap fun block => block.insts.toList).map
        Instruction.name, ?_, ?_⟩
    · conv_lhs => rw [← List.take_append_drop id.index function.blocks.toList,
        List.drop_eq_getElem_cons bound]
      rw [List.flatMap_append, List.flatMap_cons, List.map_append, List.map_append]
    · rw [List.modify_eq_take_cons_drop bound, List.flatMap_append, List.flatMap_cons,
        List.map_append, List.map_append]
  · refine .inl ?_
    rw [List.modify_eq_self (Nat.le_of_not_lt bound)]

/-- An instruction more is a result more. -/
theorem results_perm (function : Function) (id : BlockId) {change : Block → Block}
    {name : ValueName} (adds : ∀ block : Block, ((change block).insts.toList.map
      Instruction.name).Perm (name :: block.insts.toList.map Instruction.name)) :
    (function.modifyBlock id change).results = function.results ∨
      (function.modifyBlock id change).results.Perm (name :: function.results) := by
  rcases function.results_modifyBlock id change with same | ⟨block, before, behind, old, new⟩
  · exact .inl same
  · refine .inr ?_
    rw [old, new]
    exact (((adds block).append_right behind).append_left before).trans List.perm_middle

/-- Fewer instructions are fewer results. -/
theorem results_sublist (function : Function) (id : BlockId) {change : Block → Block}
    (loses : ∀ block : Block, ((change block).insts.toList.map Instruction.name).Sublist
      (block.insts.toList.map Instruction.name)) :
    (function.modifyBlock id change).results.Sublist function.results := by
  rcases function.results_modifyBlock id change with same | ⟨block, before, behind, old, new⟩
  · rw [same]
  · rw [old, new]
    exact (List.Sublist.refl before).append ((loses block).append (.refl behind))

theorem results_append (function : Function) (id : BlockId) (inst : Instruction) :
    (function.modifyBlock id fun found => found.append inst).results = function.results ∨
      (function.modifyBlock id fun found => found.append inst).results.Perm
        (inst.name :: function.results) := by
  refine function.results_perm id fun block => ?_
  rw [insts_append, List.map_append]
  exact List.perm_append_singleton _ _

theorem results_insert (function : Function) (id : BlockId) (position : Nat) (inst : Instruction) :
    (function.modifyBlock id fun found => found.insert position inst).results = function.results ∨
      (function.modifyBlock id fun found => found.insert position inst).results.Perm
        (inst.name :: function.results) := by
  refine function.results_perm id fun block => ?_
  rw [insts_insert, List.map_append, List.map_cons]
  refine List.perm_middle.trans (List.Perm.cons _ ?_)
  rw [← List.map_append, List.take_append_drop]

theorem results_remove (function : Function) (id : BlockId) (position : Nat) :
    (function.modifyBlock id fun found => found.remove position).results.Sublist
      function.results := by
  refine function.results_sublist id fun block => ?_
  rw [insts_remove]
  exact (List.eraseIdx_sublist _ _).map _

theorem results_terminate (function : Function) (id : BlockId) (terminator : Terminator) :
    (function.modifyBlock id fun found => found.terminate terminator).results.Sublist
      function.results :=
  function.results_sublist id fun _ => .refl _

end Function

end TreeLowering.Ir

namespace TreeLowering.Lowering

open TreeLowering.Ir

namespace Builder

variable {before after : Builder} {func : FuncId} {function : Function}

/-! ### Edits -/

/-- Whether the name is handed out no more while the builder stays with its function. -/
def Taken (builder : Builder) : ValueName → Prop
  | .temp number => number < builder.nextTemp
  | .named text => text ∈ builder.usedNames

/-- What becomes of a function: it is new and has no instructions, or it may have lost results, or
it is the function being built and has a result more, with a name that was free before. -/
inductive Turns (before after : Builder) (func : FuncId) (function : Function) : Prop
  | new (missing : before.target.function? func = none) (bare : function.results = [])
  | less {old : Function} (found : before.target.function? func = some old)
      (params : function.params = old.params) (fewer : function.results.Sublist old.results)
  | more {old : Function} {name : ValueName} (found : before.target.function? func = some old)
      (params : function.params = old.params) (current : before.current = some func)
      (added : function.results.Perm (name :: old.results)) (free : ¬ before.Taken name)
      (taken : after.Taken name)

theorem Edit.current (edit : before.Edit after) : after.current = before.current := by
  cases edit with
  | name named => exact named.current
  | slot _ named => exact named.current
  | _ => rfl

theorem Edit.cursor (edit : before.Edit after) {cursor : Cursor}
    (here : after.cursor = some cursor) : before.cursor = some cursor := by
  cases edit with
  | name named => exact named.cursor ▸ here
  | slot _ named => exact named.cursor ▸ here
  | close terminator _ => cases here
  | _ => exact here

/-- A name stays taken. -/
theorem Edit.taken (edit : before.Edit after) {name : ValueName} (taken : before.Taken name) :
    after.Taken name := by
  have later : before.nextTemp ≤ after.nextTemp ∧ before.usedNames ⊆ after.usedNames := by
    cases edit with
    | name named => exact ⟨named.temps, named.names⟩
    | slot _ named => exact ⟨named.temps, named.names⟩
    | spend => exact ⟨Nat.le_succ _, fun _ => id⟩
    | append _ _ => exact ⟨Nat.le_succ _, fun _ => id⟩
    | _ => exact ⟨Nat.le_refl _, fun _ => id⟩
  cases name with
  | temp number => exact Nat.lt_of_lt_of_le taken later.1
  | named text => exact later.2 taken

/-- A change of one function turns that function, and leaves the others as they are. -/
theorem Turns.modify {here : FuncId} {second : Module} (change : Function → Function)
    (modified : second.functions = before.target.functions.modify here.index change)
    (found : second.function? func = some function)
    (params : ∀ old : Function, (change old).params = old.params)
    (turns : ∀ old, before.target.function? here = some old →
      (change old).results.Sublist old.results ∨ ∃ name, before.current = some here ∧
        (change old).results.Perm (name :: old.results) ∧ ¬ before.Taken name ∧ after.Taken name) :
    Turns before after func function := by
  rw [Module.function?_modify modified] at found
  split_ifs at found with same
  · subst same
    obtain ⟨old, stored, rfl⟩ := Option.map_eq_some_iff.1 found
    rcases turns old stored with fewer | ⟨name, current, added, free, taken⟩
    · exact .less stored (params old) fewer
    · exact .more stored (params old) current added free taken
  · exact .less found rfl (.refl _)

theorem Turns.modifyBlock {here : FuncId} {id : BlockId} {change : Block → Block}
    (found : (before.target.modifyBlock here id change).function? func = some function)
    (turns : ∀ old : Function, (old.modifyBlock id change).results.Sublist old.results ∨
      ∃ name, before.current = some here ∧
        (old.modifyBlock id change).results.Perm (name :: old.results) ∧ ¬ before.Taken name ∧
          after.Taken name) :
    Turns before after func function :=
  .modify (fun function => function.modifyBlock id change) rfl found (fun _ => rfl) fun old _ =>
    turns old

/-- The name of a new slot was free, and is taken from now on. -/
theorem taken_of_slotNamed {variableName : Option String} {name : ValueName}
    (named : Build.SlotNamed variableName before after name) :
    ¬ before.Taken name ∧ after.Taken name := by
  rcases named.fresh with ⟨number, bound, rfl⟩ | ⟨text, free, rfl⟩
  · exact ⟨Nat.not_lt.2 bound, named.spent number rfl⟩
  · exact ⟨free, named.used text rfl⟩

theorem Edit.turns (edit : before.Edit after)
    (placed : ∀ cursor, before.cursor = some cursor → before.current = some cursor.func)
    (found : after.target.function? func = some function) : Turns before after func function := by
  cases edit with
  | entry here =>
    refine .modify Function.withEntry rfl found (fun old => ?_) fun old _ => .inl ?_
    · exact old.params_withEntry
    · rw [old.results_withEntry]
  | block here hint =>
    refine .modify (fun function => function.addBlock hint) rfl found (fun old => ?_) fun old _ => .inl ?_
    · exact old.params_withEntry
    · rw [Function.results_addBlock]
  | declare declared =>
    have declares := (Module.declareFunction_spec declared).1
    cases stored : before.target.function? func with
    | none =>
      exact .new stored (Function.results_of_declaration (declares.added func function stored found))
    | some old =>
      cases (declares.kept func old stored).symm.trans found
      exact .less stored rfl (.refl _)
  | spend => exact .less found rfl (.refl _)
  | pin pinned => exact .less found rfl (.refl _)
  | name named => exact .less (named.target ▸ found) rfl (.refl _)
  | @append cursor op ty here plain =>
    refine .modifyBlock found fun old => ?_
    rcases old.results_append cursor.block ⟨.temp before.nextTemp, ty, op⟩ with same | added
    · exact .inl (by rw [same])
    · exact .inr ⟨_, placed cursor here, added, Nat.lt_irrefl _, Nat.lt_succ_self _⟩
  | @slot here variableName start name ty current named =>
    have free := taken_of_slotNamed named
    let slot : Instruction := ⟨name, .ptr ty true, .alloca ty⟩
    have whole : (before.target.modifyFunction here fun old => old.withEntry.modifyBlock
        Function.entryId fun found => found.insert start.slotCount slot).function? func =
          some function := by
      rw [← found, ← named.target, Module.modifyBlock, Module.function?_modifyFunction,
        Module.function?_modifyFunction, Module.function?_modifyFunction]
      split_ifs
      · rw [Option.map_map]
        rfl
      · rfl
    refine .modify (fun old => old.withEntry.modifyBlock Function.entryId fun found =>
      found.insert start.slotCount slot) rfl whole (fun old => ?_) fun old _ => ?_
    · exact old.params_withEntry
    · rcases old.withEntry.results_insert Function.entryId start.slotCount slot with same | added
      · exact .inl (by rw [same, Function.results_withEntry])
      · rw [Function.results_withEntry] at added
        exact .inr ⟨name, current, added, free.1, free.2⟩
  | @drop value cursor position origin source =>
    exact .modifyBlock found fun old => .inl (old.results_remove _ _)
  | @close cursor terminator here =>
    exact .modifyBlock found fun old => .inl (old.results_terminate _ _)

/-- No function goes away. -/
theorem Edit.stays (edit : before.Edit after)
    (stored : (before.target.function? func).isSome = true) :
    (after.target.function? func).isSome = true := by
  have modified : ∀ {first second : Module} {here : FuncId} (change : Function → Function),
      second.functions = first.functions.modify here.index change →
        (first.function? func).isSome = true → (second.function? func).isSome = true := by
    intro first second here change modified stored
    rw [Module.function?_modify modified]
    split_ifs
    · rwa [Option.isSome_map]
    · exact stored
  cases edit with
  | entry here => exact modified Function.withEntry rfl stored
  | block here hint => exact modified (fun function => function.addBlock hint) rfl stored
  | declare declared =>
    obtain ⟨function, found⟩ := Option.isSome_iff_exists.1 stored
    rw [(Module.declareFunction_spec declared).1.kept func function found]
    rfl
  | spend => exact stored
  | pin pinned => exact stored
  | name named => exact named.target ▸ stored
  | append _ _ => exact modified (fun function => function.modifyBlock _ _) rfl stored
  | slot _ named =>
    exact modified (fun function => function.modifyBlock _ _) rfl
      (modified Function.withEntry rfl (named.target ▸ stored))
  | drop _ => exact modified (fun function => function.modifyBlock _ _) rfl stored
  | close _ _ => exact modified (fun function => function.modifyBlock _ _) rfl stored

/-! ### Moves -/

/-- Where a builder is after it has moved. It keeps the names that are taken if it was at the same
function before, and knows of the parameters only if it was not. -/
theorem move_cases {builder : Builder} {here : FuncId} {block : BlockId}
    (opened : (builder.target.modifyFunction here Function.withEntry).checkOpen here block = .ok ()) :
    (builder.move here block).cursor = some ⟨here, block⟩ ∧
      (builder.move here block).current = some here ∧
      ((builder.current = some here ∧
          ∀ name, builder.Taken name → (builder.move here block).Taken name) ∨
        (builder.current ≠ some here ∧ ∃ function, builder.target.function? here = some function ∧
          ∀ param ∈ function.params, (builder.move here block).Taken (.named param.name))) := by
  obtain ⟨function, _, found, _⟩ := Module.checkOpen_ok opened
  unfold move enter
  by_cases same : builder.current = some here
  · rw [if_pos same]
    exact ⟨rfl, same, .inl ⟨same, fun name taken => by cases name <;> exact taken⟩⟩
  · rw [if_neg same, found]
    rw [Module.function?_modifyFunction, if_pos rfl] at found
    obtain ⟨old, stored, rfl⟩ := Option.map_eq_some_iff.1 found
    refine ⟨rfl, rfl, .inr ⟨same, old, stored, fun param member => ?_⟩⟩
    exact List.mem_map_of_mem (old.params_withEntry ▸ member)

theorem target_move (builder : Builder) (here : FuncId) (block : BlockId) :
    (builder.move here block).target =
      builder.target.modifyFunction here Function.withEntry := by
  unfold move enter
  dsimp only
  split
  · rfl
  · split <;> rfl

/-- Moving changes neither results nor parameters. -/
theorem function?_move {builder : Builder} {here : FuncId} {block : BlockId}
    (found : (builder.move here block).target.function? func = some function) :
    ∃ old, builder.target.function? func = some old ∧ function.params = old.params ∧
      function.results = old.results := by
  rw [target_move, Module.function?_modifyFunction] at found
  split_ifs at found
  · obtain ⟨old, stored, rfl⟩ := Option.map_eq_some_iff.1 found
    exact ⟨old, stored, old.params_withEntry, old.results_withEntry⟩
  · exact ⟨function, found, rfl, rfl⟩

/-! ### Names of parameters -/

/-- The names of the parameters of the function being built are taken, and no result has the name
of a parameter of its function. -/
structure Orderly (builder : Builder) : Prop where
  placed : ∀ cursor, builder.cursor = some cursor → builder.current = some cursor.func
  stands : ∀ func, builder.current = some func → (builder.target.function? func).isSome = true
  reserved : ∀ func function, builder.current = some func →
    builder.target.function? func = some function →
    ∀ param ∈ function.params, builder.Taken (.named param.name)
  apart : ∀ func function, builder.target.function? func = some function →
    ∀ param ∈ function.params, .named param.name ∉ function.results

namespace Orderly

theorem start {target : Module} (options : Options)
    (unused : ∀ function ∈ target.functions, function.results = []) :
    (startOn target options).Orderly := by
  refine ⟨nofun, nofun, nofun, fun func function found param _ => ?_⟩
  rw [unused function (Array.mem_of_getElem? found)]
  exact List.not_mem_nil

theorem edit (orderly : before.Orderly) (edit : before.Edit after) : after.Orderly := by
  have current := edit.current
  refine ⟨fun cursor here => ?_, fun func here => ?_, fun func function here found param member => ?_,
    fun func function found param member given => ?_⟩
  · exact current ▸ orderly.placed cursor (edit.cursor here)
  · exact edit.stays (orderly.stands func (current ▸ here))
  · refine edit.taken ?_
    cases edit.turns orderly.placed found with
    | new missing _ =>
      have stands := orderly.stands func (current ▸ here)
      rw [missing] at stands
      cases stands
    | less stored params _ =>
      exact orderly.reserved func _ (current ▸ here) stored param (params ▸ member)
    | more stored params _ _ _ _ =>
      exact orderly.reserved func _ (current ▸ here) stored param (params ▸ member)
  · cases edit.turns orderly.placed found with
    | new _ bare =>
      rw [bare] at given
      cases given
    | less stored params fewer =>
      exact orderly.apart func _ stored param (params ▸ member) (fewer.subset given)
    | more stored params here added free _ =>
      rcases List.mem_cons.1 (added.subset given) with rfl | earlier
      · exact free (orderly.reserved func _ here stored param (params ▸ member))
      · exact orderly.apart func _ stored param (params ▸ member) earlier

theorem move {builder : Builder} {here : FuncId} {block : BlockId} (orderly : builder.Orderly)
    (opened : (builder.target.modifyFunction here Function.withEntry).checkOpen here block =
      .ok ()) : (builder.move here block).Orderly := by
  obtain ⟨cursor, current, taken⟩ := move_cases opened
  refine ⟨fun cursor' positioned => ?_, fun func same => ?_,
    fun func function same found param member => ?_, fun func function found param member given => ?_⟩
  · cases cursor.symm.trans positioned
    exact current
  · cases current.symm.trans same
    obtain ⟨function, _, found, _⟩ := Module.checkOpen_ok opened
    rw [target_move, found]
    rfl
  · cases current.symm.trans same
    obtain ⟨old, stored, params, _⟩ := function?_move found
    rw [params] at member
    rcases taken with ⟨stayed, kept⟩ | ⟨_, old', stored', reserved⟩
    · exact kept _ (orderly.reserved _ old stayed stored param member)
    · cases stored.symm.trans stored'
      exact reserved param member
  · obtain ⟨old, stored, params, results⟩ := function?_move found
    rw [results] at given
    exact orderly.apart func old stored param (params ▸ member) given

theorem obey {builder : Builder} (orderly : builder.Orderly) (command : Command) :
    (builder.obey command).Orderly :=
  obey_keeps orderly (fun edit orderly => orderly.edit edit) fun _ _ _ opened => orderly.move opened

/-- The law holds throughout a run. -/
theorem run {builder : Builder} (orderly : builder.Orderly) (commands : List Command) :
    (builder.run commands).Orderly := by
  induction commands generalizing builder with
  | nil => exact orderly
  | cons command rest inductionHypothesis => exact inductionHypothesis (orderly.obey command)

end Orderly

/-! ### Names of results -/

/-- Whether a command takes the builder back to a function that it has left with instructions. -/
def returnsTo (builder : Builder) (func : FuncId) : Command → Bool
  | .positionAt target _ => target == func && builder.current != some func &&
    (builder.target.function? func).any fun function => !function.results.isEmpty
  | _ => false

/-- Whether the builder comes back to a function at some point of a run. -/
def comesBack (func : FuncId) : (builder : Builder) → List Command → Bool
  | _, [] => false
  | builder, command :: rest =>
    builder.returnsTo func command || comesBack func (builder.obey command) rest

/-- The results of the function are named apart, and while it is being built their names are
taken. -/
structure Distinct (func : FuncId) (builder : Builder) : Prop where
  known : ∀ function, builder.current = some func →
    builder.target.function? func = some function → ∀ name ∈ function.results, builder.Taken name
  apart : ∀ function, builder.target.function? func = some function → function.results.Nodup

namespace Distinct

theorem edit (distinct : before.Distinct func) (orderly : before.Orderly)
    (edit : before.Edit after) : after.Distinct func := by
  refine ⟨fun function here found name given => ?_, fun function found => ?_⟩
  · rw [edit.current] at here
    cases edit.turns orderly.placed found with
    | new _ bare =>
      rw [bare] at given
      cases given
    | less stored _ fewer =>
      exact edit.taken (distinct.known _ here stored name (fewer.subset given))
    | more stored _ _ added _ taken =>
      rcases List.mem_cons.1 (added.subset given) with rfl | earlier
      · exact taken
      · exact edit.taken (distinct.known _ here stored name earlier)
  · cases edit.turns orderly.placed found with
    | new _ bare =>
      rw [bare]
      exact List.nodup_nil
    | less stored _ fewer => exact fewer.nodup (distinct.apart _ stored)
    | more stored _ here added free _ =>
      rw [added.nodup_iff, List.nodup_cons]
      exact ⟨fun given => free (distinct.known _ here stored _ given), distinct.apart _ stored⟩

theorem move {builder : Builder} {here : FuncId} {block : BlockId} (distinct : builder.Distinct func)
    (opened : (builder.target.modifyFunction here Function.withEntry).checkOpen here block = .ok ())
    (stays : builder.returnsTo func (.positionAt here block) = false) :
    (builder.move here block).Distinct func := by
  refine ⟨fun function same found name given => ?_, fun function found => ?_⟩
  · obtain ⟨_, current, taken⟩ := move_cases opened
    cases current.symm.trans same
    obtain ⟨old, stored, _, results⟩ := function?_move found
    rw [results] at given
    rcases taken with ⟨stayed, kept⟩ | ⟨left, _⟩
    · exact kept name (distinct.known old stayed stored name given)
    · have bare : old.results = [] := by simpa [returnsTo, left, stored] using stays
      rw [bare] at given
      cases given
  · obtain ⟨old, stored, _, results⟩ := function?_move found
    rw [results]
    exact distinct.apart old stored

/-- The law holds throughout a run. -/
theorem run {builder : Builder} {commands : List Command} (distinct : builder.Distinct func)
    (orderly : builder.Orderly) (stays : comesBack func builder commands = false) :
    (builder.run commands).Distinct func := by
  induction commands generalizing builder with
  | nil => exact distinct
  | cons command rest inductionHypothesis =>
    obtain ⟨now, later⟩ := Bool.or_eq_false_iff.1 stays
    refine inductionHypothesis ?_ (orderly.obey command) later
    have kept := @obey_keeps (fun builder => builder.Orderly ∧ builder.Distinct func) builder command
      ⟨orderly, distinct⟩
      (fun edit ⟨orderly, distinct⟩ => ⟨orderly.edit edit, distinct.edit orderly edit⟩)
      fun here block asked opened => ⟨orderly.move opened, distinct.move opened (asked ▸ now)⟩
    exact kept.2

end Distinct

/-- However the builder is used, no result is named like a parameter of its function; and the results
of a function that the builder does not come back to are named apart. -/
theorem results_of_run {target : Module} (options : Options)
    (unused : ∀ function ∈ target.functions, function.results = [])
    (commands : List Command) {func : FuncId} {function : Function}
    (found : ((startOn target options).run commands).target.function? func = some function) :
    (∀ param ∈ function.params, .named param.name ∉ function.results) ∧
      (comesBack func (startOn target options) commands = false → function.results.Nodup) := by
  have start := Orderly.start options unused
  refine ⟨(start.run commands).apart func function found, fun stays => ?_⟩
  have distinct : (startOn target options).Distinct func := by
    refine ⟨nofun, fun function found => ?_⟩
    rw [unused function (Array.mem_of_getElem? found)]
    exact List.nodup_nil
  exact (distinct.run start stays).apart function found

/-- `fn f(x: i32) -> i32` and `fn g()`, both without a body. -/
def pairOfFunctions : Module :=
  ((Module.empty "main").addFunction (.declared "f" [⟨"x", .i32⟩] .i32) rfl).addFunction
    (.declared "g" [] .unit) rfl

/-- Builds two blocks of `f`, and goes on to `g` behind them. -/
def oneAfterTheOther : List Command :=
  [.positionAt ⟨0⟩ Function.entryId, .alloca .i32 (some "x"), .unary .not (.param "x" .i32),
    .newBlock "next", .jump ⟨1⟩, .positionAt ⟨0⟩ ⟨1⟩, .alloca .i32 (some "x"),
    .unary .neg (.param "x" .i32), .ret none, .positionAt ⟨1⟩ Function.entryId]

/-- Comes back from `g` to `f`. -/
def thereAndBack : List Command :=
  [.positionAt ⟨0⟩ Function.entryId, .alloca .i32 (some "x"), .positionAt ⟨1⟩ Function.entryId,
    .positionAt ⟨0⟩ Function.entryId, .alloca .i32 (some "x")]

theorem pairOfFunctions_unused : ∀ function ∈ pairOfFunctions.functions, function.results = [] := by
  decide

theorem oneAfterTheOther_results : ∃ function,
    ((startOn pairOfFunctions .standard).run oneAfterTheOther).target.function? ⟨0⟩ = some function ∧
      (∀ function ∈ pairOfFunctions.functions, function.results = []) ∧
      comesBack ⟨0⟩ (startOn pairOfFunctions .standard) oneAfterTheOther = false ∧
      (∀ param ∈ function.params, .named param.name ∉ function.results) ∧
      function.results.Nodup := by
  have stays : comesBack ⟨0⟩ (startOn pairOfFunctions .standard) oneAfterTheOther = false := by
    cbv
  have found : (((startOn pairOfFunctions .standard).run oneAfterTheOther).target.function?
      ⟨0⟩).isSome = true := by cbv
  obtain ⟨function, found⟩ := Option.isSome_iff_exists.1 found
  have named := results_of_run .standard pairOfFunctions_unused oneAfterTheOther found
  exact ⟨function, found, pairOfFunctions_unused, stays, named.1, named.2 stays⟩

/-- A function that the builder comes back to may get a name twice. -/
theorem results_repeated : ¬ ∀ (target : Module) (options : Options) (commands : List Command),
    (∀ function ∈ target.functions, function.results = []) → ∀ func function,
      ((startOn target options).run commands).target.function? func = some function →
        (∀ param ∈ function.params, .named param.name ∉ function.results) ∧
          function.results.Nodup := by
  intro claim
  have twice : (((startOn pairOfFunctions .standard).run thereAndBack).target.function? ⟨0⟩).map
      Function.results = some [.named "x.addr", .named "x.addr"] := by cbv
  obtain ⟨function, found, results⟩ := Option.map_eq_some_iff.1 twice
  have distinct := (claim pairOfFunctions .standard thereAndBack pairOfFunctions_unused _ function
    found).2
  rw [results] at distinct
  exact absurd distinct (by decide)

end Builder

end TreeLowering.Lowering
