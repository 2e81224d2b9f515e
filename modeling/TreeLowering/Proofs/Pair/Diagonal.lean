/-
This file puts a run beside itself. What both states have in common is then that they are the same,
and that an invariant holds; a pairing of this kind is steady as soon as every step keeps the
invariant when it returns. Two runs of one program that are monitored in different ways are compared
like this as well.
-/

import TreeLowering.Proofs.Pair.Expr
import TreeLowering.Proofs.Regime.Returned

namespace TreeLowering.Lowering

open TreeLowering.Ir TreeLowering.Tree

/-! ### Steps of a run that return -/

section Returned

variable {α β : Type} {context : Context}

theorem returns_build {action : BuildM α} {post : α → Context → Prop}
    (returns : Returns action context.builder fun result builder =>
      post result { context with builder }) : Returns (build action) context post := by
  obtain ⟨builder, env, memo, strings, scope⟩ := context
  intro result after returned
  simp only [build] at returned
  cases ended : action builder with
  | ok result' after' =>
    rw [ended] at returned
    cases returned
    exact returns _ _ ended
  | error cause after' =>
    rw [ended] at returned
    cases returned

theorem returns_mapping {action : TypeM α} {post : α → Context → Prop}
    (returns : Returns action ⟨context.memo, context.builder.target⟩ fun result after =>
      post result { context with
        memo := after.memo, builder := { context.builder with target := after.target } }) :
    Returns (mapping action) context post := by
  intro result after returned
  unfold mapping at returned
  cases ended : action ⟨context.memo, context.builder.target⟩ with
  | ok result' after' =>
    rw [ended] at returned
    cases returned
    exact returns _ _ ended
  | error cause after' =>
    rw [ended] at returned
    cases returned

theorem returns_discard {action : LowerM α} {post : Unit → Context → Prop}
    (returns : Returns action context fun _ => post ()) : Returns (discard action) context post := by
  have unfolded : discard action = action >>= fun _ => pure () := by
    rw [discard, map_const, Function.comp_apply, bind_pure_comp]
  rw [unfolded, returns_bind]
  exact returns.mono fun _ _ holds => returns_pure.2 holds

/-- Along a list, what each step keeps is kept. -/
theorem Returns.mapM {σ : Type} {items : List β} {action : β → EStateM Error σ α}
    {invariant : σ → Prop} {state : σ}
    (each : ∀ item ∈ items, ∀ state, invariant state → Returns (action item) state fun _ => invariant)
    (holds : invariant state) : Returns (items.mapM action) state fun _ => invariant := by
  induction items generalizing state with
  | nil => exact returns_pure.2 holds
  | cons item rest inductionHypothesis =>
    rw [List.mapM_cons, returns_bind]
    refine (each item List.mem_cons_self state holds).mono fun _ middle kept => ?_
    rw [returns_bind]
    refine (inductionHypothesis (fun item member => each item (List.mem_cons_of_mem _ member))
      kept).mono fun _ after kept' => ?_
    exact returns_pure.2 kept'

end Returned

/-! ### Diagonal pairings -/

/-- What holds along one run that is put beside itself. What a name may be bound to, and which names
are addressed, depends on the names that the body takes the address of. -/
structure Diagonal where
  invariant : Work → Prop
  /-- The values that may be used by now. -/
  sound : Work → Value → Prop
  typed : Value → Ty → Prop
  bindable : List Name → Name → Binding → Prop
  mapped : TypeId → Ty → Prop
  looksUp : ScopeId → Name → Prop
  addresses : List Name → Name → Prop
  namesSlots : Prop
  excused : Error → Error → Prop
  halts : Error → Prop

namespace Diagonal

/-- A type may be used when its placeholder may be. -/
@[reducible] def Admits (diagonal : Diagonal) (work : Work) (ty : Ty) : Prop :=
  diagonal.sound work (.undef ty)

/-- The invariant still holds, and no value is lost. -/
structure Keeps (diagonal : Diagonal) (work after : Work) : Prop where
  invariant : diagonal.invariant after
  sound : ∀ value, diagonal.sound work value → diagonal.sound after value

theorem Keeps.trans {diagonal : Diagonal} {first second third : Work}
    (earlier : diagonal.Keeps first second) (later : diagonal.Keeps second third) :
    diagonal.Keeps first third :=
  ⟨later.invariant, fun value sound => later.sound value (earlier.sound value sound)⟩

/-- Where everything may be used, the invariant is all there is to keep. -/
theorem Keeps.of_free {diagonal : Diagonal} {work after : Work}
    (free : ∀ value, diagonal.sound after value) (holds : diagonal.invariant after) :
    diagonal.Keeps work after :=
  ⟨holds, fun value _ => free value⟩

/-- The pairing of a run with itself, in a body that takes the address of `taken`. -/
@[reducible] def pairing (diagonal : Diagonal) (taken : List Name) : Pairing where
  holds work work' := work' = work ∧ diagonal.invariant work
  sound work _ := diagonal.sound work
  typed := diagonal.typed
  bindable := diagonal.bindable taken
  mine func func' := func' = func
  callee func func' := func' = func
  mapped := diagonal.mapped
  looksUp := diagonal.looksUp
  addresses := diagonal.addresses taken
  namesSlots := diagonal.namesSlots
  hasTexts := True
  excused := diagonal.excused
  halts := diagonal.halts

/-- What can be used of a function that is declared. -/
structure Serves (diagonal : Diagonal) (work : Work) (function : Function) : Prop where
  callee : diagonal.sound work (.global function.name function.signature)
  ret : diagonal.Admits work function.ret
  params : ∀ position, ∀ value ∈ function.paramValue? position, diagonal.sound work value

/-- The steps that lowering takes keep the invariant. -/
structure Steady (diagonal : Diagonal) (source : Source) : Prop where
  pardons : ∀ cause, diagonal.excused cause cause
  usable : ∀ work, Usable (diagonal.sound work)
  points : ∀ {value : Value} {ty mutable}, value.ty = .ptr ty mutable → diagonal.typed value ty
  plain : ∀ {taken name value}, name ∉ taken →
    diagonal.bindable taken name (.value value) ∧ diagonal.bindable taken name (.param value)
  slots : ∀ {taken name address ty mutable},
    diagonal.bindable taken name (.slot address ty mutable)
  homed : ∀ {taken name value}, diagonal.addresses taken name →
    diagonal.bindable taken name (.value value) ∨ diagonal.bindable taken name (.param value) →
    diagonal.namesSlots
  emits : ∀ {taken work op ty}, diagonal.invariant work → (diagonal.pairing taken).Emits ty op →
    (diagonal.pairing taken).Reads work work op → diagonal.Admits work ty →
    Returns (Build.emitTemp op ty) work.builder fun _ after =>
      diagonal.Keeps work { work with builder := after }
  reserves : ∀ {work ty} {variableName : Option String}, diagonal.invariant work →
    (variableName.isSome = true → diagonal.namesSlots) → diagonal.Admits work ty →
    Returns (Build.alloca ty variableName) work.builder fun _ after =>
      diagonal.Keeps work { work with builder := after }
  stores : ∀ {work address value ty}, diagonal.invariant work → diagonal.typed address ty →
    diagonal.sound work address → diagonal.sound work value →
    Returns (Build.store address value) work.builder fun _ after =>
      diagonal.Keeps work { work with builder := after }
  pins : ∀ {work value}, diagonal.invariant work →
    Returns (Build.pin value) work.builder fun _ after =>
      diagonal.Keeps work { work with builder := after }
  opens : ∀ {work hint}, diagonal.invariant work →
    Returns (Build.newBlock hint) work.builder fun _ after =>
      diagonal.Keeps work { work with builder := after }
  starts : ∀ {work func}, diagonal.invariant work →
    Returns (Build.ensureEntry func) work.builder fun _ after =>
      diagonal.Keeps work { work with builder := after }
  moves : ∀ {work func block}, diagonal.invariant work →
    Returns (Build.positionAt func block) work.builder fun _ after =>
      diagonal.Keeps work { work with builder := after }
  closes : ∀ {work} {terminator : Terminator}, diagonal.invariant work →
    (∀ test first second, terminator = .branch test first second → test.ty = .bool) →
    (∀ value ∈ terminator.operands, diagonal.sound work value) →
    Returns (Build.terminate terminator) work.builder fun _ after =>
      diagonal.Keeps work { work with builder := after }
  maps : ∀ {work} (ty : TypeId), diagonal.invariant work →
    Returns (mapType source ty) ⟨work.memo, work.builder.target⟩ fun found after =>
      diagonal.Keeps work (work.mapped after) ∧ diagonal.mapped ty found ∧
        diagonal.Admits (work.mapped after) found
  declares : ∀ {work scope name link ty params ret}, diagonal.invariant work →
    diagonal.looksUp scope name →
    source.program.scopes.resolve? scope name .value = some (.function link ty) →
    (∀ param ∈ params, diagonal.Admits work param) → diagonal.Admits work ret →
    Returns (Build.declare fun target =>
      target.declareFunction (source.names.text link) (numberParams params) ret) work.builder
      fun _ after => diagonal.Keeps work { work with builder := after }
  serves : ∀ {work func function}, diagonal.invariant work →
    work.builder.target.getFunction func = .ok function → diagonal.Serves work function
  defines : ∀ {work text}, diagonal.invariant work → work.strings.lookup text = none →
    Returns (Build.declare fun target =>
      target.declareGlobal (stringGlobal work.strings.length text)) work.builder fun address after =>
        diagonal.Keeps work
          { work with builder := after, strings := (text, address) :: work.strings }
  texts : ∀ {work text name ty}, diagonal.invariant work →
    work.strings.lookup text = some (.global name ty) →
    diagonal.sound work (.const (.slice name text.utf8ByteSize.toUInt64) (.slice .u8))
  constants : ∀ {work scope name link ty found}, diagonal.invariant work →
    source.program.scopes.resolve? scope name .value = some (.const link ty) →
    diagonal.mapped ty found → ∀ global ∈ work.builder.target.global? (source.names.text link),
      diagonal.typed global.address found ∧ diagonal.sound work global.address

variable {diagonal : Diagonal} {source : Source} {taken : List Name}

/-- A step that is taken in both runs ends in both alike. -/
theorem steps {α : Type} {action : BuildM α} {work work' : Work} {post : α → α → Prop}
    (pardons : ∀ cause, diagonal.excused cause cause)
    (holds : (diagonal.pairing taken).holds work work')
    (returns : diagonal.invariant work → Returns action work.builder fun result after =>
      diagonal.Keeps work { work with builder := after } ∧ post result result) :
    (diagonal.pairing taken).Steps action action work work' post := by
  obtain ⟨rfl, invariant⟩ := holds
  unfold Pairing.Steps
  cases ended : action work'.builder with
  | ok result after =>
    obtain ⟨kept, answered⟩ := returns invariant result after ended
    exact ⟨⟨rfl, kept.invariant⟩, kept.sound, answered⟩
  | error cause after => exact .inl (pardons cause)

/-- Where the rules hold, both runs are in the same state. -/
theorem same_of_rules {scope : ScopeId} {context context' : Context}
    (rules : (diagonal.pairing taken).Rules scope context context') : context' = context := by
  obtain ⟨builder, env, memo, strings, here⟩ := context
  obtain ⟨builder', env', memo', strings', here'⟩ := context'
  have work := rules.holds.1
  have env := rules.env
  have scope := rules.here'.trans rules.here.symm
  simp only [Context.work, Work.mk.injEq] at work env scope
  obtain ⟨rfl, rfl, rfl⟩ := work
  subst env scope
  rfl

/-- The invariant is kept, and names mean what they meant before. -/
structure Quiet (diagonal : Diagonal) (context after : Context) : Prop where
  keeps : diagonal.Keeps context.work after.work
  env : after.env = context.env
  scope : after.scope = context.scope

theorem Quiet.refl {context : Context} (invariant : diagonal.invariant context.work) :
    diagonal.Quiet context context :=
  ⟨⟨invariant, fun _ => id⟩, rfl, rfl⟩

theorem Quiet.trans {first second third : Context} (earlier : diagonal.Quiet first second)
    (later : diagonal.Quiet second third) : diagonal.Quiet first third :=
  ⟨earlier.keeps.trans later.keeps, later.env.trans earlier.env, later.scope.trans earlier.scope⟩

/-- What is done with a state that both runs share ends in both alike. -/
theorem agrees {α : Type} {action : LowerM α} {scope : ScopeId} {context context' : Context}
    {post : α → α → Context → Context → Prop} (pardons : ∀ cause, diagonal.excused cause cause)
    (returns : diagonal.invariant context.work → Returns action context fun result after =>
      diagonal.Quiet context after ∧ ∀ after', post result result after after') :
    (diagonal.pairing taken).Matches scope action action context context' post := by
  intro rules
  obtain rfl := same_of_rules rules
  cases ended : action context' with
  | ok result after =>
    obtain ⟨quiet, answered⟩ := returns rules.holds.2 result after ended
    exact ⟨rules.work ⟨rfl, quiet.keeps.invariant⟩ quiet.keeps.sound quiet.env quiet.env quiet.scope
      quiet.scope, quiet.keeps.sound, answered after⟩
  | error cause after => exact .inl (pardons cause)

namespace Steady

variable (steady : diagonal.Steady source)

include steady

theorem returns_lowerType (ty : TypeId) {context : Context}
    (invariant : diagonal.invariant context.work) :
    Returns (lowerType source ty) context fun found after => diagonal.Quiet context after ∧
      diagonal.mapped ty found ∧ diagonal.Admits after.work found :=
  returns_mapping ((steady.maps ty invariant).mono fun _ _ kept => ⟨⟨kept.1, rfl, rfl⟩, kept.2⟩)

theorem returns_lowerTypes (types : List TypeId) {context : Context}
    (invariant : diagonal.invariant context.work) :
    Returns (types.mapM (lowerType source)) context fun found after =>
      diagonal.Quiet context after ∧ ∀ ty ∈ found, diagonal.Admits after.work ty := by
  induction types generalizing context with
  | nil => exact returns_pure.2 ⟨.refl invariant, nofun⟩
  | cons ty rest inductionHypothesis =>
    rw [List.mapM_cons, returns_bind]
    refine (steady.returns_lowerType ty invariant).mono fun mapped middle ⟨quiet, _, admits⟩ => ?_
    rw [returns_bind]
    refine (inductionHypothesis quiet.keeps.invariant).mono fun others after ⟨quiet', admitted⟩ => ?_
    exact returns_pure.2 ⟨quiet.trans quiet',
      List.forall_mem_cons.2 ⟨quiet'.keeps.sound _ admits, admitted⟩⟩

/-- Looking a function up may declare it. -/
theorem returns_functionForSymbol {scope : ScopeId} {name link : Name} {ty : TypeId} (span : Span)
    (looked : diagonal.looksUp scope name)
    (resolved : source.program.scopes.resolve? scope name .value = some (.function link ty))
    {context : Context} (invariant : diagonal.invariant context.work) :
    Returns (functionForSymbol source link ty span) context fun _ after =>
      diagonal.Quiet context after := by
  unfold functionForSymbol
  rw [returns_bind, returns_get]
  split
  · exact returns_pure.2 (.refl invariant)
  · split
    · next params ret _ =>
      rw [returns_bind]
      refine (steady.returns_lowerTypes params invariant).mono fun types first ⟨quiet, admitted⟩ => ?_
      rw [returns_bind]
      refine (steady.returns_lowerType ret quiet.keeps.invariant).mono
        fun mapped second ⟨quiet', _, admits⟩ => ?_
      refine returns_build ((steady.declares quiet'.keeps.invariant looked resolved
        (fun ty member => quiet'.keeps.sound _ (admitted ty member)) admits).mono
        fun _ _ kept => ?_)
      exact (quiet.trans quiet').trans ⟨kept, rfl, rfl⟩
    · exact fun _ _ impossible => by cases impossible

theorem returns_stringLiteral (text : String) {context : Context}
    (invariant : diagonal.invariant context.work) :
    Returns (stringLiteral text) context fun value after =>
      diagonal.Quiet context after ∧ diagonal.sound after.work value := by
  have interned : Returns (internString text) context fun address after =>
      diagonal.Quiet context after ∧ after.strings.lookup text = some address := by
    unfold internString
    rw [returns_bind, returns_get]
    dsimp only
    split
    · next address found => exact returns_pure.2 ⟨.refl invariant, found⟩
    · next missing =>
      rw [returns_bind]
      refine returns_build ((steady.defines invariant missing).mono fun address after kept => ?_)
      rw [returns_bind, returns_modify, returns_pure]
      exact ⟨⟨kept, rfl, rfl⟩, List.lookup_cons_self⟩
  unfold stringLiteral
  rw [returns_bind]
  refine interned.mono fun address after ⟨quiet, found⟩ => ?_
  split
  · exact returns_pure.2 ⟨quiet, steady.texts quiet.keeps.invariant found⟩
  · exact fun _ _ impossible => by cases impossible

/-- A run whose steps keep the invariant may be put beside itself. -/
theorem pairing (taken : List Name) : (diagonal.pairing taken).Steady source source taken where
  pardons := steady.pardons
  usable work _ := steady.usable work
  points := steady.points
  plain := steady.plain
  slots := steady.slots
  homed := steady.homed
  cursors holds := by rw [holds.1]
  current holds := steps steady.pardons holds fun invariant =>
    Build.returns_currentFunction fun func _ => ⟨⟨invariant, fun _ => id⟩, rfl⟩
  emits := by
    intro work work' op ty holds emits reads admits
    refine steps steady.pardons holds fun invariant value after returned => ?_
    have named : Returns (Build.emitTemp op ty) work.builder fun value _ =>
        ∃ name, value = .reg name ty := Build.returns_emitTemp fun _ _ _ => ⟨_, rfl⟩
    exact ⟨steady.emits invariant emits ⟨reads.operands, reads.steps⟩ admits value after returned, rfl,
      named value after returned⟩
  reserves := by
    intro work work' ty variableName holds named admits
    refine steps steady.pardons holds fun invariant value after returned => ?_
    have register : Returns (Build.alloca ty variableName) work.builder fun value _ =>
        ∃ name, value = .reg name (.ptr ty true) :=
      Build.returns_alloca fun _ _ _ _ _ => ⟨_, rfl⟩
    exact ⟨steady.reserves invariant named admits value after returned, rfl,
      register value after returned⟩
  stores holds typed address value := steps steady.pardons holds fun invariant =>
    (steady.stores invariant typed address value).mono fun _ _ kept => ⟨kept, trivial⟩
  pins holds := steps steady.pardons holds fun invariant =>
    (steady.pins invariant).mono fun _ _ kept => ⟨kept, trivial⟩
  opens holds := steps steady.pardons holds fun invariant =>
    (steady.opens invariant).mono fun _ _ kept => ⟨kept, rfl⟩
  moves := by
    rintro work work' _ func block holds rfl
    exact steps steady.pardons holds fun invariant =>
      (steady.moves invariant).mono fun _ _ kept => ⟨kept, trivial⟩
  closes holds tests operands := steps steady.pardons holds fun invariant =>
    (steady.closes invariant tests operands).mono fun _ _ kept => ⟨kept, trivial⟩
  maps := by
    rintro _ work ty ⟨rfl, invariant⟩
    cases ended : mapType source ty ⟨work.memo, work.builder.target⟩ with
    | ok found after =>
      obtain ⟨kept, mapped, admits⟩ := steady.maps ty invariant found after ended
      exact ⟨⟨rfl, kept.invariant⟩, kept.sound, rfl, mapped, admits⟩
    | error cause after => exact .inl (steady.pardons cause)
  symbols looked resolved := agrees steady.pardons fun invariant =>
    (steady.returns_functionForSymbol _ looked resolved invariant).mono fun _ _ quiet =>
      ⟨quiet, fun _ => rfl⟩
  calls := by
    rintro _ work _ func ⟨rfl, invariant⟩ rfl
    cases found : work.builder.target.getFunction func with
    | ok function =>
      have serves := steady.serves invariant found
      exact ⟨rfl, rfl, serves.callee, serves.ret⟩
    | error cause => exact steady.pardons _
  constants := by
    rintro _ work scope name link ty found ⟨rfl, invariant⟩ _ resolved mapped admits
    cases stored : work.builder.target.global? (source.names.text link) with
    | none => trivial
    | some global =>
      obtain ⟨typed, sound⟩ := steady.constants invariant resolved mapped global stored
      exact ⟨rfl, typed, sound, admits⟩
  literals _ := fun {_ _ _} text => agrees steady.pardons fun invariant =>
    (steady.returns_stringLiteral text invariant).mono fun _ _ ⟨quiet, sound⟩ =>
      ⟨quiet, fun _ => ⟨rfl, sound⟩⟩

end Steady

end Diagonal

end TreeLowering.Lowering
