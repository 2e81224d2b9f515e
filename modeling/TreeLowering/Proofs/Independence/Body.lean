/-
This file lowers one body in two programs that declare the same. The size of a value decides whether
it is copied by a call, and the copy routine is declared by the first body that needs it; neither
depends on what was lowered before. So both runs fail, or both give the function the same body.
-/

import TreeLowering.Proofs.Independence.Alike
import TreeLowering.Proofs.Rewrite.Tables
import TreeLowering.Proofs.Slots.Taken

namespace TreeLowering.Lowering

open TreeLowering.Ir TreeLowering.Tree

/-! ### The copy routine -/

/-- The copy routine can be declared: a function of its name has its signature, and if there is none,
there is room for one. -/
structure CopyReady (signatures : List Function) (options : Options) : Prop where
  agrees : ∀ function ∈ signatures, function.name = options.copySymbol →
    function.signature = (copyFunction options).signature
  room : (∀ function ∈ signatures, function.name ≠ options.copySymbol) →
    signatures.length < idLimit

/-- The order of the functions does not matter. -/
theorem CopyReady.perm {signatures signatures' : List Function} {options : Options}
    (ready : CopyReady signatures options) (same : signatures'.Perm signatures) :
    CopyReady signatures' options :=
  ⟨fun function member => ready.agrees function (same.mem_iff.1 member), fun absent =>
    same.length_eq.trans_lt (ready.room fun function member => absent function
      (same.mem_iff.2 member))⟩

/-- Where no function has its name, the copy routine only needs room. -/
theorem CopyReady.of_absent {source : Source} {options : Options}
    (absent : ∀ decl ∈ source.program.functions,
      source.names.text decl.link ≠ options.copySymbol)
    (room : source.program.functions.length < idLimit) :
    CopyReady (source.program.functions.map source.signature) options := by
  refine ⟨fun function member named => ?_, fun _ => (List.length_map _).trans_lt room⟩
  obtain ⟨decl, listed, rfl⟩ := List.mem_map.1 member
  exact absurd named (absent decl listed)

/-- What a step that declares the copy routine leaves behind. -/
structure Furnished.Copied (source : Source) (options : Options) (work : Work) (builder : Builder) :
    Prop where
  furnished : Furnished source options { work with builder }
  types : builder.target.types = work.builder.target.types
  kept : ∀ func function, work.builder.target.function? func = some function →
    builder.target.function? func = some function
  rest : builder = { work.builder with target := builder.target }

section Copy

variable {source : Source} {options : Options} {work : Work}

/-- A module that has the copy routine already is not changed. -/
theorem Furnished.Copied.refl (furnished : Furnished source options work) :
    Furnished.Copied source options work work.builder :=
  ⟨furnished, rfl, fun _ _ => id, rfl⟩

/-- Declaring the copy routine yields a function that serves as one, or it fails for good reason. -/
structure Furnished.Serves (source : Source) (options : Options) (work : Work) : Prop where
  found : ∀ func target,
    work.builder.target.declareFunction options.copySymbol Build.copyParams .unit =
      .ok func target → CopyReady (source.program.functions.map source.signature) options ∧
        Furnished.Copied source options work { work.builder with target } ∧
        target.functionRef func = .ok (.global options.copySymbol (copyFunction options).signature)
  refused : ∀ cause target,
    work.builder.target.declareFunction options.copySymbol Build.copyParams .unit =
      .error cause target → ¬ CopyReady (source.program.functions.map source.signature) options

/-- A function with the name and the signature of the copy routine is called like it. -/
theorem functionRef_copy {target : Module} {func : FuncId} {function : Function}
    (found : target.signatures[func.index]? = some function)
    (named : function.name = options.copySymbol)
    (signed : function.signature = (copyFunction options).signature) :
    target.functionRef func = .ok (.global options.copySymbol (copyFunction options).signature) := by
  rw [Module.getElem?_signatures] at found
  obtain ⟨stored, here, rfl⟩ := Option.map_eq_some_iff.1 found
  rw [Module.functionRef_of_found here, ← named, ← signed]
  rfl

/-- The program has a function with the name of the copy routine. -/
theorem Furnished.serves_given (furnished : Furnished source options work)
    (links : (source.program.functions.map fun decl => source.names.text decl.link).Nodup)
    {decl : FunctionDecl} (listed : decl ∈ source.program.functions)
    (named : source.names.text decl.link = options.copySymbol) :
    Furnished.Serves source options work := by
  obtain ⟨others, supplied, canonical⟩ := furnished.canonical
  obtain rfl : others = [] := supplied.resolve_right fun alone => alone.2.2 decl listed named
  have functions := canonical.functions.trans (List.append_nil _)
  obtain ⟨func, known⟩ := @Module.functionId?_of_mem work.builder.target (source.signature decl)
    (functions ▸ List.mem_map_of_mem listed)
  obtain ⟨function, found, named'⟩ := Module.getElem?_of_functionId? known
  replace named' : function.name = options.copySymbol := named'.trans named
  have agrees : ∀ other ∈ source.program.functions,
      source.names.text other.link = options.copySymbol → source.signature other = function := by
    obtain ⟨decl', listed', rfl⟩ := List.mem_map.1 (functions ▸ List.mem_of_getElem? found)
    intro other listed'' named''
    rw [List.inj_on_of_nodup_map links listed'' listed' (named''.trans named'.symm)]
  obtain ⟨stored, here, rfl⟩ := Module.function?_of_signatures found
  replace known : work.builder.target.functionId? options.copySymbol = some func := named ▸ known
  by_cases same : stored.signature = (copyFunction options).signature
  · have declared := Module.declareFunction_of_same known here same
    refine ⟨fun _ _ returned => ?_, fun _ _ returned => ?_⟩ <;> cases declared.symm.trans returned
    refine ⟨⟨fun _ member named'' => ?_, fun absent => ?_⟩, .refl furnished,
      functionRef_copy found named' same⟩
    · obtain ⟨other, listed', rfl⟩ := List.mem_map.1 member
      rw [agrees other listed' named'']
      exact same
    · exact absurd named (absent _ (List.mem_map_of_mem listed))
  · have declared := Module.declareFunction_of_differs known here same
    refine ⟨fun _ _ returned => ?_, fun _ _ _ ready => same ?_⟩
    · cases declared.symm.trans returned
    · refine (?_ : stored.bare.signature = _)
      rw [← agrees decl listed named]
      exact ready.agrees _ (List.mem_map_of_mem listed) named

/-- The copy routine was declared before. -/
theorem Furnished.serves_again (furnished : Furnished source options work)
    (canonical : Canonical source source.program.functions source.program.consts
      [copyFunction options] work)
    (absent : ∀ decl ∈ source.program.functions,
      source.names.text decl.link ≠ options.copySymbol)
    (room : source.program.functions.length < idLimit) :
    Furnished.Serves source options work := by
  obtain ⟨func, known⟩ := @Module.functionId?_of_mem work.builder.target (copyFunction options)
    (by rw [canonical.functions]; exact List.mem_append_right _ List.mem_cons_self)
  obtain ⟨function, found, named⟩ := Module.getElem?_of_functionId? known
  have inside := List.mem_of_getElem? found
  rw [canonical.functions] at inside
  rcases List.mem_append.1 inside with program | routine
  · obtain ⟨decl, listed, rfl⟩ := List.mem_map.1 program
    exact absurd named (absent decl listed)
  · obtain rfl := List.mem_singleton.1 routine
    obtain ⟨stored, here, bare⟩ := Module.function?_of_signatures found
    have signed : stored.bare.signature = (copyFunction options).signature :=
      congrArg Function.signature bare
    have declared := @Module.declareFunction_of_same _ options.copySymbol
      Build.copyParams .unit _ _ known here signed
    refine ⟨fun _ _ returned => ?_, fun _ _ returned => ?_⟩ <;> cases declared.symm.trans returned
    exact ⟨.of_absent absent room, .refl furnished, functionRef_copy found rfl rfl⟩

/-- The copy routine is put behind the functions of the program. -/
theorem Furnished.serves_new (furnished : Furnished source options work)
    (canonical : Canonical source source.program.functions source.program.consts [] work)
    (absent : ∀ decl ∈ source.program.functions,
      source.names.text decl.link ≠ options.copySymbol) :
    Furnished.Serves source options work := by
  have functions := canonical.functions.trans (List.append_nil _)
  have missing : ∀ function ∈ work.builder.target.signatures,
      function.name ≠ options.copySymbol := by
    intro function member
    obtain ⟨decl, listed, rfl⟩ := List.mem_map.1 (functions ▸ member)
    exact absent decl listed
  have count : work.builder.target.functions.size = source.program.functions.length := by
    rw [← Module.length_signatures, functions, List.length_map]
  replace missing := Module.functionId?_of_unnamed missing
  by_cases room : source.program.functions.length < idLimit
  · have declared := @Module.declareFunction_of_missing _ _ Build.copyParams .unit missing
      (count ▸ room)
    refine ⟨fun _ _ returned => ?_, fun _ _ returned => ?_⟩ <;> cases declared.symm.trans returned
    have signatures := @Module.signatures_addFunction _ (copyFunction options) missing
    rw [functions] at signatures
    refine ⟨.of_absent absent room, ⟨⟨furnished.chosen, _, .inr ⟨rfl, room, absent⟩,
        canonical.types.of_types rfl, signatures, canonical.globals, canonical.typed, canonical.held⟩,
        rfl, fun func function found => ?_, rfl⟩,
      functionRef_copy ((congrArg (·[work.builder.target.functions.size]?) signatures).trans ?_) rfl
        rfl⟩
    · obtain ⟨bound, _⟩ := Array.getElem?_eq_some_iff.1 found
      exact (Array.getElem?_push_lt bound).trans
        (congrArg some (Array.getElem?_eq_some_iff.1 found).2)
    · simp only [count, List.getElem?_append_right, List.length_map, Nat.le_refl, Nat.sub_self]
      rfl
  · have declared := @Module.declareFunction_of_full _ _ Build.copyParams .unit missing
      (count ▸ room)
    refine ⟨fun _ _ returned => ?_, fun _ _ _ ready => room ?_⟩
    · cases declared.symm.trans returned
    · rw [← @List.length_map _ _ _ source.signature]
      exact ready.room fun function member => by
        obtain ⟨decl, listed, rfl⟩ := List.mem_map.1 member
        exact absent decl listed

theorem Furnished.serves (furnished : Furnished source options work)
    (links : (source.program.functions.map fun decl => source.names.text decl.link).Nodup) :
    Furnished.Serves source options work := by
  by_cases given : ∃ decl ∈ source.program.functions,
      source.names.text decl.link = options.copySymbol
  · obtain ⟨decl, listed, named⟩ := given
    exact furnished.serves_given links listed named
  · have absent : ∀ decl ∈ source.program.functions,
        source.names.text decl.link ≠ options.copySymbol :=
      fun decl listed named => given ⟨decl, listed, named⟩
    obtain ⟨others, rfl | ⟨rfl, room, _⟩, canonical⟩ := furnished.canonical
    · exact furnished.serves_new canonical absent
    · exact furnished.serves_again canonical absent room

theorem Furnished.copyRoutine (furnished : Furnished source options work)
    (links : (source.program.functions.map fun decl => source.names.text decl.link).Nodup) :
    Ends Build.copyRoutine work.builder
      (fun routine builder => CopyReady (source.program.functions.map source.signature) options ∧
        Furnished.Copied source options work builder ∧
        routine = .global options.copySymbol (copyFunction options).signature)
      fun _ _ => ¬ CopyReady (source.program.functions.map source.signature) options := by
  obtain ⟨declared, refused⟩ := furnished.serves links
  obtain rfl := furnished.chosen
  unfold Build.copyRoutine
  rw [ends_bind, ends_get, ends_bind]
  unfold Ends
  rw [Build.declare]
  cases stepped : work.builder.target.declareFunction work.builder.options.copySymbol
      Build.copyParams .unit with
  | error cause target => exact refused cause target stepped
  | ok func target =>
    obtain ⟨ready, copied, named⟩ := declared func target stepped
    simp only [Build.ask, named]
    exact ⟨ready, copied, trivial⟩

end Copy

/-! ### Stores -/

/-- Both runs have declared the copy routine. -/
theorem Alike.copied {source source' : Source} {options : Options} {func func' : FuncId}
    {work work' : Work} (alike : Alike source source' options func func' work work')
    {builder builder' : Builder} (copied : Furnished.Copied source options work builder)
    (copied' : Furnished.Copied source' options work' builder') :
    Alike source source' options func func' { work with builder }
      { work' with builder := builder' } := by
  obtain ⟨function, found, found'⟩ := alike.own
  refine ⟨copied.furnished, copied'.furnished,
    ⟨function, copied.kept func function found, copied'.kept func' function found'⟩, ?_, ?_, ?_⟩
  · exact (congrArg Builder.current copied.rest).trans alike.current
  · intro cursor member
    exact alike.here cursor ((congrArg Builder.cursor copied.rest).symm.trans member)
  · show builder' = { builder with
      target := builder'.target
      cursor := builder.cursor.map fun cursor => ⟨func', cursor.block⟩
      current := some func' }
    rw [copied'.rest, copied.rest]
    exact congrArg (fun old => { old with target := builder'.target }) alike.rest

section Stores

variable {source : Source} {arena : Arena} {items : List Item} {options : Options}
  {func func' : FuncId} {work work' : Work}
  (same : source.DeclaresSame arena items)
  (alike : Alike source (source.swap arena items) options func func' work work')

include same alike

theorem Alike.sizeOf {value : Value}
    (sound : (besides source (source.swap arena items) options func func').sound work work' value) :
    work'.builder.target.sizeOf value.ty = work.builder.target.sizeOf value.ty :=
  alike.furnished.complete.sizeOf_eq same.formed.mappable alike.furnished'.complete.of_swap sound.1 sound.2

omit same in
/-- A load stands behind a value in both runs or in none. -/
theorem Alike.loadBehind? (value : Value) :
    work.builder.loadBehind? value = none ∧ work'.builder.loadBehind? value = none ∨
      ∃ block position origin,
        work.builder.loadBehind? value = some (⟨func, block⟩, position, origin) ∧
          work'.builder.loadBehind? value = some (⟨func', block⟩, position, origin) := by
  obtain ⟨function, found, found'⟩ := alike.own
  simp only [Builder.loadBehind?, alike.pinned, alike.cursor]
  cases value.regName? with
  | none => exact .inl ⟨rfl, rfl⟩
  | some name =>
  by_cases pinned : name ∈ work.builder.pinned
  · exact .inl ⟨by simp [pinned], by simp [pinned]⟩
  cases positioned : work.builder.cursor with
  | none => exact .inl ⟨by simp, by simp⟩
  | some cursor =>
  obtain ⟨here, block⟩ := cursor
  obtain rfl : here = func := alike.here _ positioned
  cases stored : function.block? block with
  | none => exact .inl ⟨by simp [found, stored], by simp [found', stored]⟩
  | some content =>
  cases loaded : Builder.findLoad? name content.insts.toList.reverse with
  | none => exact .inl ⟨by simp [found, stored, loaded], by simp [found', stored, loaded]⟩
  | some answer =>
    obtain ⟨position, origin⟩ := answer
    exact .inr ⟨block, position, origin, by simp [pinned, found, stored, loaded],
      by simp [pinned, found', stored, loaded]⟩

/-- A store becomes a copy in both runs or in none. -/
theorem Alike.copySource {value : Value}
    (sound : (besides source (source.swap arena items) options func func').sound work work'
      value) :
    (besides source (source.swap arena items) options func func').Steps
      (Build.measure fun builder => builder.copySource? value)
      (Build.measure fun builder => builder.copySource? value) work work' fun found found' =>
        found = none ∧ found' = none ∨ ∃ block position origin,
          found = some (⟨func, block⟩, position, origin) ∧
            found' = some (⟨func', block⟩, position, origin) := by
  have large : work'.builder.isLargeAggregate value.ty =
      work.builder.isLargeAggregate value.ty := by
    unfold Builder.isLargeAggregate
    rw [alike.chosen, alike.sizeOf same sound]
  unfold Pairing.Steps Build.measure Builder.copySource?
  dsimp only
  rw [large]
  cases work.builder.isLargeAggregate value.ty with
  | error cause => exact .inl trivial
  | ok large =>
    cases large with
    | false => exact ⟨alike, fun _ => id, .inl ⟨rfl, rfl⟩⟩
    | true => exact ⟨alike, fun _ => id, alike.loadBehind? value⟩

/-- The size of a value is the same in both runs. -/
theorem Alike.measured {value : Value}
    (sound : (besides source (source.swap arena items) options func func').sound work work'
      value) :
    (besides source (source.swap arena items) options func func').Steps
      (Build.measure fun builder => builder.target.sizeOf value.ty)
      (Build.measure fun builder => builder.target.sizeOf value.ty) work work'
      fun size size' => size' = size := by
  unfold Pairing.Steps Build.measure
  dsimp only
  rw [alike.sizeOf same sound]
  cases work.builder.target.sizeOf value.ty with
  | error cause => exact .inl trivial
  | ok size => exact ⟨alike, fun _ => id, rfl⟩

/-- The copy routine is declared in both runs, or in none. -/
theorem Alike.copyRoutine :
    (besides source (source.swap arena items) options func func').Steps Build.copyRoutine
      Build.copyRoutine work work' fun routine routine' => routine' = routine := by
  have first := alike.furnished.copyRoutine same.links
  have second := alike.furnished'.copyRoutine same.links'
  rw [source.signature_swap] at second
  unfold Ends at first second
  unfold Pairing.Steps
  cases ended : Build.copyRoutine work.builder with
  | error cause after =>
    rw [ended] at first
    cases ended' : Build.copyRoutine work'.builder with
    | error cause' after' => exact .inl trivial
    | ok routine' after' =>
      rw [ended'] at second
      exact first (second.1.perm same.functions.symm)
  | ok routine after =>
    rw [ended] at first
    obtain ⟨ready, copied, rfl⟩ := first
    cases ended' : Build.copyRoutine work'.builder with
    | error cause' after' =>
      rw [ended'] at second
      exact second (ready.perm same.functions)
    | ok routine' after' =>
      rw [ended'] at second
      obtain ⟨_, copied', rfl⟩ := second
      exact ⟨alike.copied copied copied', besides_later copied.types copied'.types, rfl⟩

theorem Alike.store {address value : Value}
    (sound : (besides source (source.swap arena items) options func func').sound work work'
      value) :
    (besides source (source.swap arena items) options func func').Steps (Build.store address value)
      (Build.store address value) work work' fun _ _ => True := by
  unfold Build.store
  refine (alike.copySource same sound).bind ?_
  rintro _ _ _ _ alike later (⟨rfl, rfl⟩ | ⟨block, position, origin, rfl, rfl⟩)
  · exact (alike.emitTemp _ _).bind fun _ _ _ _ alike _ _ => .pure alike trivial
  · refine (alike.removeAt block position).bind fun _ _ _ _ alike later' _ => ?_
    unfold Build.copyAggregate
    refine (alike.measured same (later' _ (later _ sound))).bind ?_
    rintro size _ _ _ alike - rfl
    refine (alike.copyRoutine same).bind ?_
    rintro routine _ _ _ alike - rfl
    refine (alike.emitTemp _ _).bind ?_
    rintro destination _ _ _ alike - ⟨rfl, _⟩
    refine (alike.emitTemp _ _).bind ?_
    rintro origin _ _ _ alike - ⟨rfl, _⟩
    exact (alike.emitTemp _ _).bind fun _ _ _ _ alike _ _ => .pure alike trivial

end Stores

/-! ### Names -/

section Bodies

variable {source : Source} {arena : Arena} {items : List Item} {options : Options}
  {func func' : FuncId} {work work' : Work} (same : source.DeclaresSame arena items)

include same

theorem Source.DeclaresSame.global? (furnished : Furnished source options work)
    (furnished' : Furnished (source.swap arena items) options work') (name : String) :
    work'.builder.target.global? name = work.builder.target.global? name ∧
      ∀ global ∈ work.builder.target.global? name,
        global.ty.Within work.builder.target.Knows ∧ global.ty.Within work'.builder.target.Knows := by
  obtain ⟨_, _, canonical⟩ := furnished.canonical
  obtain ⟨_, _, canonical'⟩ := furnished'.canonical
  have globals' := canonical'.globals
  have held' := canonical'.held
  rw [source.global_swap] at globals'
  rw [source.translation_swap] at held'
  have apart : ((source.program.consts.map source.global).map Global.name).Nodup := by
    rw [List.map_map]
    exact same.names
  constructor
  · rw [Module.global?_eq_find?, Module.global?_eq_find?, ← Array.find?_toList,
      ← Array.find?_toList, globals', canonical.globals]
    exact find?_of_perm Global.name (same.consts.map _) apart name
  · intro global found
    have listed := Array.mem_toList_iff.2 (Module.global?_eq_some_iff.1 found).1
    rw [canonical.globals] at listed
    obtain ⟨decl, given, rfl⟩ := List.mem_map.1 listed
    exact ⟨canonical.held decl given, held' decl (same.consts.mem_iff.2 given)⟩

/-- A function of one program has its counterpart in the other. -/
theorem Source.DeclaresSame.counterpart {decl : FunctionDecl}
    (listed : decl ∈ source.program.functions) :
    ∃ decl' ∈ (source.swap arena items).program.functions,
      source.signature decl' = source.signature decl :=
  List.mem_map.1 (same.functions.mem_iff.2 (List.mem_map_of_mem listed))

/-- A type is mapped alike in both runs, and no function is touched. -/
theorem Source.DeclaresSame.mapType (ty : TypeId)
    (alike : Alike source (source.swap arena items) options func func' work work') :
    (besides source (source.swap arena items) options func func').Outcome
      (fun found after found' after' =>
        Alike source (source.swap arena items) options func func' (work.mapped after)
          (work'.mapped after') ∧
        (∀ value,
          (besides source (source.swap arena items) options func func').sound work work' value →
          (besides source (source.swap arena items) options func func').sound (work.mapped after)
            (work'.mapped after') value) ∧
        found' = found ∧ found = source.translation ty ∧
        (besides source (source.swap arena items) options func func').Admits (work.mapped after)
          (work'.mapped after') found)
      (mapType source ty ⟨work.memo, work.builder.target⟩)
      (mapType (source.swap arena items) ty ⟨work'.memo, work'.builder.target⟩) := by
  have first := alike.furnished.complete.mapType same.formed.mappable ty
  have second := alike.furnished'.complete.mapType same.formed'.mappable ty
  rw [source.translation_swap] at second
  unfold Ends at first second
  cases ended : Lowering.mapType source ty ⟨work.memo, work.builder.target⟩ with
  | error cause after =>
    rw [ended] at first
    exact first.elim
  | ok found after =>
  cases ended' : Lowering.mapType (source.swap arena items) ty
      ⟨work'.memo, work'.builder.target⟩ with
  | error cause after' =>
    rw [ended'] at second
    exact second.elim
  | ok found' after' =>
    rw [ended] at first
    rw [ended'] at second
    obtain ⟨complete, rfl, within, only, knows⟩ := first
    obtain ⟨complete', rfl, within', only', knows'⟩ := second
    refine ⟨?_, fun ty sound => ⟨sound.1.mono knows, sound.2.mono knows'⟩, rfl, rfl, within, within'⟩
    obtain ⟨function, stored, stored'⟩ := alike.own
    refine ⟨alike.furnished.mapped complete only knows,
      alike.furnished'.mapped complete' only' knows', ⟨function, ?_, ?_⟩, alike.current, alike.here,
      ?_⟩
    · exact (congrArg (·[func.index]?) only.functions).trans stored
    · exact (congrArg (·[func'.index]?) only'.functions).trans stored'
    · exact congrArg (fun builder => { builder with target := after'.target }) alike.rest

/-- A function that a body uses is found in both runs. -/
theorem Source.DeclaresSame.functionForSymbol {scope : ScopeId} {link : Name} {ty : TypeId}
    {span : Span} {context context' : Context}
    (used : ∃ decl ∈ source.program.functions, decl.link = link) :
    (besides source (source.swap arena items) options func func').Matches scope
      (functionForSymbol source link ty span)
      (functionForSymbol (source.swap arena items) link ty span) context context'
      fun found found' _ _ =>
        (besides source (source.swap arena items) options func func').callee found found' := by
  intro rules
  obtain ⟨decl, listed, rfl⟩ := used
  obtain ⟨decl', listed', signed⟩ := same.counterpart listed
  obtain ⟨found, known, here⟩ := rules.holds.furnished.functionId? same.links listed
  obtain ⟨found', known', here'⟩ := rules.holds.furnished'.functionId? same.links' listed'
  have named : source.names.text decl'.link = source.names.text decl.link :=
    congrArg Function.name signed
  have step : Lowering.functionForSymbol source decl.link ty span context = .ok found context := by
    unfold Lowering.functionForSymbol
    rw [run_bind (rfl : (get : LowerM Context) context = .ok context context)]
    simp only [show context.builder.target.functionId? (source.names.text decl.link) = some found
      from known]
    rfl
  have step' : Lowering.functionForSymbol (source.swap arena items) decl.link ty span context' =
      .ok found' context' := by
    unfold Lowering.functionForSymbol
    rw [run_bind (rfl : (get : LowerM Context) context' = .ok context' context')]
    simp only [show context'.builder.target.functionId? (source.names.text decl.link) = some found'
      from named ▸ known']
    rfl
  rw [step, step']
  refine ⟨rules, fun _ => id, decl, decl', here, here', ?_⟩
  rw [source.signature_swap, signed]

omit same in
/-- A function that may be called has one signature in both runs. -/
theorem Alike.sameFunction {found found' : FuncId}
    (alike : Alike source (source.swap arena items) options func func' work work')
    (callee : (besides source (source.swap arena items) options func func').callee found found') :
    (besides source (source.swap arena items) options func func').SameFunction work work'
      (work.builder.target.getFunction found) (work'.builder.target.getFunction found') := by
  obtain ⟨decl, decl', listed, listed', signed⟩ := callee
  obtain ⟨function, stored, bare, within⟩ := alike.furnished.function? listed
  obtain ⟨function', stored', bare', within'⟩ := alike.furnished'.function? listed'
  have equal : function'.bare = function.bare := bare'.trans (signed.trans bare.symm)
  rw [Module.getFunction_of_found stored, Module.getFunction_of_found stored']
  have named : function'.bare.name = function.bare.name := congrArg Function.name equal
  have typed : function'.bare.signature = function.bare.signature :=
    congrArg Function.signature equal
  have signature : function.bare.signature = (source.signature decl).signature :=
    congrArg Function.signature bare
  rw [← signature] at within
  rw [signed, ← signature] at within'
  refine ⟨named, typed, ⟨within, within'⟩, ?_⟩
  cases within with
  | func _ ret =>
    cases within' with
    | func _ ret' => exact ⟨ret, ret'⟩

/-- Both runs can take every step of a body. -/
theorem Source.DeclaresSame.steady (taken : List Name) :
    (besides source (source.swap arena items) options func func').Steady source
      (source.swap arena items) taken where
  pardons _ := trivial
  usable work work' := by
    refine @Usable.of_types (fun ty => ty.Within work.builder.target.Knows ∧
      ty.Within work'.builder.target.Knows) (fun prim => ⟨.prim prim, .prim prim⟩)
      (fun {ty mutable} => ⟨fun sound => ?_, fun sound => ⟨.ptr sound.1, .ptr sound.2⟩⟩)
      fun {elem len} sound => ?_
    all_goals
      obtain ⟨⟨first⟩, ⟨second⟩⟩ := sound
      exact ⟨by assumption, by assumption⟩
  points _ := trivial
  plain _ := ⟨trivial, trivial⟩
  slots := trivial
  homed _ _ := trivial
  cursors alike := by
    rw [alike.cursor, Option.map_map]
    rfl
  current alike := alike.currentFunction
  emits alike _ _ _ := alike.emitTemp _ _
  reserves alike _ _ := alike.alloca _ _
  stores alike _ _ sound := alike.store same sound
  pins alike := alike.pin _
  opens alike := alike.newBlock _
  moves := by
    rintro work work' _ _ block alike ⟨rfl, rfl⟩
    exact alike.positionAt block
  closes alike _ _ := alike.terminate _
  maps ty alike := same.mapType ty alike
  symbols looked resolved := same.functionForSymbol (looked _ _ resolved)
  calls alike callee := alike.sameFunction callee
  constants := by
    intro work work' scope name link ty found alike _ _ _ sound
    obtain ⟨equal, held⟩ := same.global? alike.furnished alike.furnished' (source.names.text link)
    rw [equal]
    cases stored : work.builder.target.global? (source.names.text link) with
    | none => trivial
    | some global =>
      obtain ⟨within, within'⟩ := held global stored
      exact ⟨rfl, trivial, ⟨.ptr within, .ptr within'⟩, sound⟩
  literals := False.elim

end Bodies

end TreeLowering.Lowering
