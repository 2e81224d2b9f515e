/-
This file compares the lowering of one body in two modules that declare the same functions and
constants in different orders, and may hold different bodies of other functions. What the builder
does in the function at hand depends on that function, on its own counters and on the signatures
around it, so both modules end up with the same function or both runs fail.
-/

import TreeLowering.Proofs.Independence.Canonical

namespace TreeLowering.Lowering

open TreeLowering.Ir TreeLowering.Tree

/-! ### Modules between two steps -/

/-- The copy routine as it is declared. -/
def copyFunction (options : Options) : Function :=
  .declared options.copySymbol Build.copyParams .unit

/-- Behind the functions of the program comes nothing but the copy routine, unless the program has a
function of that name. -/
def Supplied (source : Source) (options : Options) (others : List Function) : Prop :=
  others = [] ∨ others = [copyFunction options] ∧ source.program.functions.length < idLimit ∧
    ∀ decl ∈ source.program.functions, source.names.text decl.link ≠ options.copySymbol

/-- The module declares what the program says, and the copy routine if it was needed. -/
structure Furnished (source : Source) (options : Options) (work : Work) : Prop where
  chosen : work.builder.options = options
  canonical : ∃ others, Supplied source options others ∧
    Canonical source source.program.functions source.program.consts others work

namespace Furnished

variable {source : Source} {options : Options} {work : Work}

theorem complete (furnished : Furnished source options work) :
    TypeState.Complete source ⟨work.memo, work.builder.target⟩ := by
  obtain ⟨_, _, canonical⟩ := furnished.canonical
  exact canonical.types

/-- Steps of the builder that leave types and globals alone and declare nothing. -/
theorem built (furnished : Furnished source options work) {builder : Builder}
    (chosen : builder.options = work.builder.options)
    (types : builder.target.types = work.builder.target.types)
    (globals : builder.target.globals = work.builder.target.globals)
    (functions : builder.target.signatures = work.builder.target.signatures) :
    Furnished source options { work with builder } := by
  obtain ⟨others, supplied, canonical⟩ := furnished.canonical
  exact ⟨chosen.trans furnished.chosen, others, supplied, canonical.built types globals functions⟩

/-- A step of the type mapping adds struct types only. -/
theorem mapped (furnished : Furnished source options work) {after : TypeState}
    (complete : after.Complete source)
    (only : OnlyTypes ⟨work.memo, work.builder.target⟩ after)
    (knows : ∀ name, work.builder.target.Knows name → after.target.Knows name) :
    Furnished source options (work.mapped after) := by
  obtain ⟨others, supplied, canonical⟩ := furnished.canonical
  exact ⟨furnished.chosen, others, supplied, canonical.mapped complete only knows⟩

/-- Changes of one function that leave its signature alone. -/
theorem modifyFunction (furnished : Furnished source options work) (func : FuncId)
    {change : Function → Function} (keeps : ∀ function, (change function).bare = function.bare) :
    Furnished source options { work with
      builder := { work.builder with
        target := work.builder.target.modifyFunction func change fun function =>
          Function.name_eq_of_bare (keeps function) } } :=
  furnished.built rfl rfl rfl (Module.signatures_modifyFunction func change keeps)

end Furnished

/-! ### What a furnished module holds -/

section Holds

variable {source : Source} {options : Options} {work : Work}

/-- A function of the program is where the program has it. -/
theorem Furnished.function? (furnished : Furnished source options work) {func : FuncId}
    {decl : FunctionDecl} (listed : source.program.functions[func.index]? = some decl) :
    ∃ function, work.builder.target.function? func = some function ∧
      function.bare = source.signature decl ∧
      (source.signature decl).signature.Within work.builder.target.Knows := by
  obtain ⟨others, _, canonical⟩ := furnished.canonical
  have stored : work.builder.target.signatures[func.index]? = some (source.signature decl) := by
    rw [canonical.functions, List.getElem?_append_left, List.getElem?_map, listed]
    · rfl
    · rw [List.length_map]
      exact (List.getElem?_eq_some_iff.1 listed).1
  rw [Module.getElem?_signatures] at stored
  obtain ⟨function, found, bare⟩ := Option.map_eq_some_iff.1 stored
  exact ⟨function, found, bare, canonical.typed decl (List.mem_of_getElem? listed)⟩

/-- A function of the program is found by its name. -/
theorem Furnished.functionId? (furnished : Furnished source options work)
    (links : (source.program.functions.map fun decl => source.names.text decl.link).Nodup)
    {decl : FunctionDecl} (listed : decl ∈ source.program.functions) :
    ∃ func, work.builder.target.functionId? (source.names.text decl.link) = some func ∧
      source.program.functions[func.index]? = some decl := by
  obtain ⟨others, supplied, canonical⟩ := furnished.canonical
  have member : source.signature decl ∈ work.builder.target.signatures := by
    rw [canonical.functions]
    exact List.mem_append_left _ (List.mem_map_of_mem listed)
  obtain ⟨func, known⟩ := Module.functionId?_of_mem member
  obtain ⟨function, found, named⟩ := Module.getElem?_of_functionId? known
  refine ⟨func, known, ?_⟩
  rw [canonical.functions] at found
  cases here : source.program.functions[func.index]? with
  | some decl' =>
    rw [List.getElem?_append_left, List.getElem?_map, here] at found
    · cases found
      rw [List.inj_on_of_nodup_map links (List.mem_of_getElem? here) listed named]
    · rw [List.length_map]
      exact (List.getElem?_eq_some_iff.1 here).1
  | none =>
    -- what comes behind the program has another name
    rw [List.getElem?_append_right (by simpa using here)] at found
    rcases supplied with rfl | ⟨rfl, _, absent⟩
    · cases found
    · obtain rfl := List.mem_singleton.1 (List.mem_of_getElem? found)
      exact absurd named.symm (absent decl listed)

end Holds

/-! ### Two modules beside each other -/

/-- Both runs build the same function, in modules that declare what their programs say. -/
structure Alike (source source' : Source) (options : Options) (func func' : FuncId)
    (work work' : Work) : Prop where
  furnished : Furnished source options work
  furnished' : Furnished source' options work'
  own : ∃ function, work.builder.target.function? func = some function ∧
    work'.builder.target.function? func' = some function
  current : work.builder.current = some func
  here : ∀ cursor ∈ work.builder.cursor, cursor.func = func
  /-- But for the modules and the position of the function in them, the builders are the same. -/
  rest : work'.builder = { work.builder with
    target := work'.builder.target
    cursor := work.builder.cursor.map fun cursor => ⟨func', cursor.block⟩
    current := some func' }

/-- The runs of two programs that lower one body. -/
@[reducible] def besides (source source' : Source) (options : Options) (func func' : FuncId) :
    Pairing where
  holds := Alike source source' options func func'
  sound work work' value :=
    value.ty.Within work.builder.target.Knows ∧ value.ty.Within work'.builder.target.Knows
  typed _ _ := True
  bindable _ _ := True
  mine found found' := found = func ∧ found' = func'
  callee found found' := ∃ decl decl', source.program.functions[found.index]? = some decl ∧
    source'.program.functions[found'.index]? = some decl' ∧
    source'.signature decl' = source.signature decl
  mapped ty found := found = source.translation ty
  looksUp scope name := ∀ link ty,
    source.program.scopes.resolve? scope name .value = some (.function link ty) →
      ∃ decl ∈ source.program.functions, decl.link = link
  addresses _ := True
  namesSlots := True
  hasTexts := False
  excused _ _ := True
  halts _ := False

section Steps

variable {α : Type} {source source' : Source} {options : Options} {func func' : FuncId}
  {work work' : Work}

/-- What is sound stays so as long as no types are added. -/
theorem besides_later {builder builder' : Builder}
    (types : builder.target.types = work.builder.target.types)
    (types' : builder'.target.types = work'.builder.target.types) (value : Value)
    (sound : (besides source source' options func func').sound work work' value) :
    (besides source source' options func func').sound { work with builder }
      { work' with builder := builder' } value :=
  ⟨sound.1.mono fun _ known => known.of_types types,
    sound.2.mono fun _ known => known.of_types types'⟩

namespace Alike

variable (alike : Alike source source' options func func' work work')

include alike

/-! ### Small steps -/

/-- The same answer is given in both runs, or none. -/
theorem ask {question question' : Module → Except Ir.Error α}
    (same : question' work'.builder.target = question work.builder.target) :
    (besides source source' options func func').Steps (Build.ask question) (Build.ask question')
      work work' fun answer answer' => answer' = answer ∧
        question work.builder.target = .ok answer := by
  unfold Pairing.Steps Build.ask
  rw [same]
  cases question work.builder.target with
  | ok answer => exact ⟨alike, fun _ => id, rfl, rfl⟩
  | error cause => exact .inl trivial

/-- Both runs change their function in the same way. -/
theorem change (edit : Function → Function)
    (keeps : ∀ function, (edit function).bare = function.bare) :
    (besides source source' options func func').Steps
      (Build.change fun target => target.modifyFunction func edit fun function =>
        Function.name_eq_of_bare (keeps function))
      (Build.change fun target => target.modifyFunction func' edit fun function =>
        Function.name_eq_of_bare (keeps function)) work work'
      fun _ _ => True := by
  refine ⟨?_, besides_later rfl rfl, trivial⟩
  obtain ⟨function, found, found'⟩ := alike.own
  refine ⟨alike.furnished.modifyFunction func keeps, alike.furnished'.modifyFunction func' keeps,
    ⟨edit function, ?_, ?_⟩, alike.current, alike.here, ?_⟩
  · rw [Module.function?_modifyFunction, if_pos rfl, found]
    rfl
  · rw [Module.function?_modifyFunction, if_pos rfl, found']
    rfl
  · exact congrArg (fun builder => { builder with
      target := work'.builder.target.modifyFunction func' edit fun function =>
        Function.name_eq_of_bare (keeps function) }) alike.rest

/-- Both runs change a block of their function in the same way. -/
theorem changeBlock {block : BlockId} {edit : Block → Block} :
    (besides source source' options func func').Steps
      (Build.change fun target => target.modifyBlock func block edit)
      (Build.change fun target => target.modifyBlock func' block edit) work work'
      fun _ _ => True :=
  alike.change (fun function => function.modifyBlock block edit) fun _ => rfl

/-- Both runs change what is kept for their function in the same way. -/
theorem modify {edit : Builder → Builder}
    (elsewhere : ∀ (builder : Builder) target cursor current options,
      edit { builder with target, cursor, current, options } =
        { edit builder with target, cursor, current, options }) :
    (besides source source' options func func').Steps (modify edit) (modify edit) work work'
      fun _ _ => True := by
  have kept : ∀ builder : Builder, edit builder = { edit builder with
      target := builder.target, cursor := builder.cursor, current := builder.current,
      options := builder.options } := fun builder => elsewhere builder ..
  have target : ∀ builder, (edit builder).target = builder.target := fun builder => by rw [kept]
  have cursor : ∀ builder, (edit builder).cursor = builder.cursor := fun builder => by rw [kept]
  have current : ∀ builder, (edit builder).current = builder.current := fun builder => by rw [kept]
  have chosen : ∀ builder, (edit builder).options = builder.options := fun builder => by rw [kept]
  refine ⟨?_, besides_later (congrArg (·.types) (target _)) (congrArg (·.types) (target _)),
    trivial⟩
  refine ⟨alike.furnished.built (chosen _) (congrArg (·.types) (target _))
    (congrArg (·.globals) (target _)) (congrArg Module.signatures (target _)),
    alike.furnished'.built (chosen _) (congrArg (·.types) (target _))
    (congrArg (·.globals) (target _)) (congrArg Module.signatures (target _)), ?_,
    (current _).trans alike.current, fun found member => ?_, ?_⟩
  · obtain ⟨function, found, found'⟩ := alike.own
    exact ⟨function, (congrArg (·.function? func) (target _)).trans found,
      (congrArg (·.function? func') (target _)).trans found'⟩
  · exact alike.here found (cursor work.builder ▸ member)
  · change edit work'.builder = { edit work.builder with
      target := (edit work'.builder).target
      cursor := (edit work.builder).cursor.map fun cursor => ⟨func', cursor.block⟩
      current := some func' }
    rw [target, cursor]
    exact (congrArg edit alike.rest).trans ((elsewhere work.builder ..).trans (by rw [← chosen]))

/-! ### Questions -/

theorem getFunction : ∃ function, work.builder.target.getFunction func = .ok function ∧
    work'.builder.target.getFunction func' = .ok function := by
  obtain ⟨function, found, found'⟩ := alike.own
  exact ⟨function, Module.getFunction_of_found found, Module.getFunction_of_found found'⟩

theorem getBlock (block : BlockId) :
    work'.builder.target.getBlock func' block = work.builder.target.getBlock func block := by
  obtain ⟨function, found, found'⟩ := alike.getFunction
  rw [Module.getBlock, Module.getBlock, found, found']

theorem checkOpen (block : BlockId) :
    work'.builder.target.checkOpen func' block = work.builder.target.checkOpen func block := by
  rw [Module.checkOpen, Module.checkOpen, alike.getBlock]

theorem checkRoom :
    work'.builder.target.checkRoom func' = work.builder.target.checkRoom func := by
  obtain ⟨function, found, found'⟩ := alike.getFunction
  rw [Module.checkRoom, Module.checkRoom, found, found']

theorem nextTemp : work'.builder.nextTemp = work.builder.nextTemp := by rw [alike.rest]

theorem slotCount : work'.builder.slotCount = work.builder.slotCount := by rw [alike.rest]

theorem pinned : work'.builder.pinned = work.builder.pinned := by rw [alike.rest]

theorem chosen : work'.builder.options = work.builder.options := by rw [alike.rest]

theorem current' : work'.builder.current = some func' := by rw [alike.rest]

theorem cursor : work'.builder.cursor =
    work.builder.cursor.map fun cursor => ⟨func', cursor.block⟩ := by rw [alike.rest]

theorem freeNumber (base : String) :
    work'.builder.freeNumber base = work.builder.freeNumber base := by
  rw [alike.rest]
  rfl

/-! ### Steps at the cursor -/

theorem currentFunction :
    (besides source source' options func func').Steps Build.currentFunction Build.currentFunction
      work work' fun found found' => found = func ∧ found' = func' := by
  unfold Build.currentFunction
  refine .get ?_
  rw [alike.current, alike.current']
  exact .pure alike ⟨rfl, rfl⟩

/-- Both runs have a cursor in the same block, or none. -/
theorem insertionPoint :
    (besides source source' options func func').Steps Build.insertionPoint Build.insertionPoint
      work work' fun cursor cursor' => ∃ block, cursor = ⟨func, block⟩ ∧
        cursor' = ⟨func', block⟩ := by
  unfold Build.insertionPoint
  refine .get ?_
  rw [alike.cursor]
  cases found : work.builder.cursor with
  | none => exact .inl trivial
  | some cursor =>
    obtain rfl := alike.here cursor found
    exact .pure alike ⟨cursor.block, rfl, rfl⟩

theorem freshName :
    (besides source source' options func func').Steps Build.freshName Build.freshName work work'
      fun name name' => name' = name := by
  unfold Build.freshName
  refine .get ?_
  rw [alike.nextTemp]
  exact (alike.modify fun _ _ _ _ _ => rfl).bind fun _ _ _ _ alike' _ _ => .pure alike' rfl

theorem ensureEntry :
    (besides source source' options func func').Steps (Build.ensureEntry func)
      (Build.ensureEntry func') work work' fun entry entry' =>
        entry = Function.entryId ∧ entry' = Function.entryId := by
  obtain ⟨function, found, found'⟩ := alike.getFunction
  unfold Build.ensureEntry
  refine (alike.ask (found'.trans found.symm)).bind fun _ _ _ _ alike' _ _ => ?_
  refine (alike'.change Function.withEntry Function.bare_withEntry).bind fun _ _ _ _ alike'' _ _ => ?_
  exact .pure alike'' ⟨rfl, rfl⟩

theorem appendAt (block : BlockId) (inst : Instruction) :
    (besides source source' options func func').Steps (Build.appendAt func block inst)
      (Build.appendAt func' block inst) work work' fun value value' =>
        value = inst.result ∧ value' = inst.result := by
  unfold Build.appendAt
  refine (alike.ask (alike.checkOpen block)).bind fun _ _ _ _ alike' _ _ => ?_
  refine alike'.changeBlock.bind fun _ _ _ _ alike'' _ _ => ?_
  exact .pure alike'' ⟨rfl, rfl⟩

theorem emitTemp (op : Operation) (ty : Ty) :
    (besides source source' options func func').Steps (Build.emitTemp op ty)
      (Build.emitTemp op ty) work work' fun value value' =>
        value' = value ∧ ∃ name, value = .reg name ty := by
  unfold Build.emitTemp Build.append
  refine alike.freshName.bind fun name name' _ _ alike' _ same => ?_
  subst same
  refine alike'.insertionPoint.bind ?_
  rintro _ _ _ _ alike'' - ⟨block, rfl, rfl⟩
  refine Pairing.Steps.mono (alike''.appendAt block ⟨name', ty, op⟩) ?_
  rintro _ _ ⟨rfl, rfl⟩
  exact ⟨rfl, name', rfl⟩

theorem slotName (variableName : Option String) :
    (besides source source' options func func').Steps (Build.slotName variableName)
      (Build.slotName variableName) work work' fun name name' => name' = name := by
  cases variableName with
  | none => exact alike.freshName
  | some name =>
    unfold Build.slotName Build.uniqueName
    refine .bind (.get ?_) fun _ _ _ _ alike' _ same => .pure alike' (congrArg ValueName.named same)
    rw [alike.freeNumber]
    exact (alike.modify fun _ _ _ _ _ => rfl).bind fun _ _ _ _ alike' _ _ => .pure alike' rfl

theorem insertAt (block : BlockId) (position : Nat) (inst : Instruction) :
    (besides source source' options func func').Steps (Build.insertAt func block position inst)
      (Build.insertAt func' block position inst) work work' fun value value' =>
        value = inst.result ∧ value' = inst.result := by
  unfold Build.insertAt
  refine (alike.ask (alike.getBlock block)).bind fun _ _ _ _ alike' _ _ => ?_
  refine alike'.changeBlock.bind fun _ _ _ _ alike'' _ _ => ?_
  exact .pure alike'' ⟨rfl, rfl⟩

theorem removeAt (block : BlockId) (position : Nat) :
    (besides source source' options func func').Steps (Build.removeAt func block position)
      (Build.removeAt func' block position) work work' fun _ _ => True := by
  unfold Build.removeAt
  refine (alike.ask (alike.getBlock block)).bind fun _ _ _ _ alike' _ _ => ?_
  exact alike'.changeBlock.bind fun _ _ _ _ alike'' _ _ => .pure alike'' trivial

theorem alloca (ty : Ty) (variableName : Option String) :
    (besides source source' options func func').Steps (Build.alloca ty variableName)
      (Build.alloca ty variableName) work work' fun value value' =>
        value' = value ∧ ∃ name, value = .reg name (.ptr ty true) := by
  unfold Build.alloca
  refine alike.currentFunction.bind ?_
  rintro _ _ _ _ alike - ⟨rfl, rfl⟩
  refine (alike.slotName variableName).bind ?_
  rintro name _ _ _ alike - rfl
  refine alike.ensureEntry.bind ?_
  rintro _ _ builder builder' alike - ⟨rfl, rfl⟩
  refine .get ?_
  rw [alike.slotCount]
  refine (alike.insertAt ..).bind ?_
  rintro _ _ _ _ alike - ⟨rfl, rfl⟩
  refine (alike.modify fun _ _ _ _ _ => rfl).bind fun _ _ _ _ alike _ _ => ?_
  exact .pure alike ⟨rfl, _, rfl⟩

theorem pin (value : Value) :
    (besides source source' options func func').Steps (Build.pin value) (Build.pin value) work work'
      fun _ _ => True := by
  unfold Build.pin
  cases value.regName? with
  | none => exact .pure alike trivial
  | some name => exact alike.modify fun _ _ _ _ _ => rfl

theorem newBlock (hint : String) :
    (besides source source' options func func').Steps (Build.newBlock hint) (Build.newBlock hint)
      work work' fun block block' => block' = block := by
  unfold Build.newBlock Build.addBlock
  refine alike.currentFunction.bind ?_
  rintro _ _ _ _ alike - ⟨rfl, rfl⟩
  refine (alike.ask alike.checkRoom).bind fun _ _ _ _ alike _ _ => ?_
  obtain ⟨function, found, found'⟩ := alike.getFunction
  refine (alike.ask (found'.trans found.symm)).bind ?_
  rintro function _ _ _ alike - ⟨rfl, _⟩
  refine (alike.change (fun function => function.addBlock hint) fun function => ?_).bind fun _ _ _ _ alike _ _ => .pure alike rfl
  exact Function.bare_withEntry function

theorem positionAt (block : BlockId) :
    (besides source source' options func func').Steps (Build.positionAt func block)
      (Build.positionAt func' block) work work' fun _ _ => True := by
  unfold Build.positionAt
  refine alike.ensureEntry.bind fun _ _ _ _ alike _ _ => ?_
  refine (alike.ask (alike.checkOpen block)).bind fun _ _ builder builder' alike _ _ => ?_
  have same : builder.enter func = builder := if_pos alike.current
  have same' : builder'.enter func' = builder' := if_pos alike.current'
  refine ⟨?_, besides_later (congrArg (·.target.types) same)
    (congrArg (·.target.types) same'), trivial⟩
  simp only [same, same']
  refine ⟨alike.furnished.built rfl rfl rfl rfl, alike.furnished'.built rfl rfl rfl rfl, alike.own,
    alike.current, ?_, ?_⟩
  · rintro _ ⟨⟩
    rfl
  · exact congrArg (fun builder => { builder with cursor := some ⟨func', block⟩ }) alike.rest

theorem terminate (terminator : Terminator) :
    (besides source source' options func func').Steps (Build.terminate terminator)
      (Build.terminate terminator) work work' fun _ _ => True := by
  unfold Build.terminate Build.terminateAt
  refine alike.insertionPoint.bind ?_
  rintro _ _ _ _ alike - ⟨block, rfl, rfl⟩
  refine Pairing.Steps.bind ((alike.ask (alike.checkOpen block)).bind
    fun _ _ _ _ alike _ _ => alike.changeBlock) fun _ _ builder builder' alike _ _ => ?_
  refine ⟨?_, besides_later rfl rfl, trivial⟩
  refine ⟨alike.furnished.built rfl rfl rfl rfl, alike.furnished'.built rfl rfl rfl rfl, alike.own,
    alike.current, nofun, ?_⟩
  exact congrArg (fun builder => { builder with cursor := none }) alike.rest

end Alike

end Steps

/-! ### Programs that declare the same -/

section Over

variable {source : Source} {arena : Arena} {items : List Item}

theorem Source.translation_swap (source : Source) (arena : Arena) (items : List Item) :
    (source.swap arena items).translation = source.translation := by
  have within : ∀ fuel, (source.swap arena items).translateWithin fuel =
      source.translateWithin fuel := by
    intro fuel
    induction fuel with
    | zero => rfl
    | succ fuel inductionHypothesis =>
      funext ty
      unfold Source.translateWithin
      rw [inductionHypothesis]
      rfl
  exact within _

theorem Source.signature_swap (source : Source) (arena : Arena) (items : List Item) :
    (source.swap arena items).signature = source.signature := by
  unfold Source.signature
  rw [source.translation_swap]

theorem Source.global_swap (source : Source) (arena : Arena) (items : List Item) :
    (source.swap arena items).global = source.global := by
  unfold Source.global
  rw [source.translation_swap]

theorem TypeState.Complete.of_swap {state : TypeState}
    (complete : state.Complete (source.swap arena items)) : state.Complete source := by
  obtain ⟨⟨known, pending, distinct, declared⟩, idle, ⟨known', fields⟩⟩ := complete
  rw [source.translation_swap] at known known' fields
  exact ⟨⟨known, pending, distinct, declared⟩, idle, ⟨known', fields⟩⟩

/-- The second program declares the same functions and constants, in any order and with any bodies. -/
structure Source.DeclaresSame (source : Source) (arena : Arena) (items : List Item) : Prop where
  formed : source.WellFormed
  formed' : (source.swap arena items).WellFormed
  functions : ((source.swap arena items).program.functions.map source.signature).Perm
    (source.program.functions.map source.signature)
  consts : (source.swap arena items).program.consts.Perm source.program.consts
  links : (source.program.functions.map fun decl => source.names.text decl.link).Nodup
  names : (source.program.consts.map fun decl => source.names.text decl.name).Nodup

/-- The second program keeps the functions apart as well. -/
theorem Source.DeclaresSame.links' (same : source.DeclaresSame arena items) :
    ((source.swap arena items).program.functions.map fun decl =>
      source.names.text decl.link).Nodup := by
  have names : ∀ decls : List FunctionDecl, (decls.map source.signature).map Function.name =
      decls.map fun decl => source.names.text decl.link := fun decls => by
    rw [List.map_map]
    rfl
  rw [← names, (same.functions.map Function.name).nodup_iff, names]
  exact same.links

end Over

end TreeLowering.Lowering
