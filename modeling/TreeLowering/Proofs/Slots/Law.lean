/-
This file proves that the search for taken addresses agrees with the lowering of places. In an
accepted program, no local that is held as a value is put into a slot on demand: where the place of a
local is computed, it is the slot that was reserved when the local was bound. The lowering of a place
would reserve a slot for a local without one; only the target of an assignment can lead there, and the
assignment is refused then.
-/

import TreeLowering.Proofs.Pair.Program
import TreeLowering.Proofs.Slots.Named
import TreeLowering.Proofs.Slots.Taken

namespace TreeLowering.Lowering

open TreeLowering.Ir TreeLowering.Tree Relation

/-! ### Guards -/

/-- Does what `action` does, and raises the alarm if it returns with the law broken. -/
def guarded {α : Type} (law : Context → α → Context → Prop)
    [∀ before result after, Decidable (law before result after)] (alarm : Error)
    (action : LowerM α) : LowerM α := fun before =>
  match action before with
  | .ok result after => if law before result after then .ok result after else .error alarm after
  | .error cause after => .error cause after

section Guarded

variable {α : Type} {law : Context → α → Context → Prop}
  [∀ before result after, Decidable (law before result after)] {alarm : Error} {action : LowerM α}
  {before after : Context} {result : α}

theorem guarded_ok (run : action before = .ok result after) (obeyed : law before result after) :
    guarded law alarm action before = .ok result after := by
  unfold guarded
  rw [run]
  exact if_pos obeyed

theorem guarded_alarm (run : action before = .ok result after)
    (broken : ¬ law before result after) :
    guarded law alarm action before = .error alarm after := by
  unfold guarded
  rw [run]
  exact if_neg broken

theorem guarded_error {cause : Error} (run : action before = .error cause after) :
    guarded law alarm action before = .error cause after := by
  unfold guarded
  rw [run]

/-- A guard that is obeyed does not show. -/
theorem guarded_eq_of_returns (obeys : Returns action before (law before)) :
    guarded law alarm action before = action before := by
  cases run : action before with
  | ok result after => exact guarded_ok run (obeys result after run)
  | error cause after => exact guarded_error run

theorem guarded_eq (obeys : ∀ before, Returns action before (law before)) :
    guarded law alarm action = action :=
  funext fun before => guarded_eq_of_returns (obeys before)

end Guarded

/-- What the local name that an expression consists of is bound to. -/
def Source.localAt? (source : Source) (context : Context) (expr : ExprId) : Option Binding :=
  match source.program.arena.get? expr with
  | some ⟨.path [name], _, _⟩ => context.env.resolve? name
  | _ => none

/-- Where there is a block to emit into, the place of a local is the slot that the local is bound to,
and nothing is emitted to find it. -/
def HomeLaw (source : Source) (expr : ExprId) (before : Context) (place : Place)
    (after : Context) : Prop :=
  before.builder.cursor.isSome = true → ∀ binding ∈ source.localAt? before expr,
    binding = .slot place.address place.ty place.mutable ∧
      after.builder.target = before.builder.target

instance (source : Source) (expr : ExprId) (before : Context) (place : Place) (after : Context) :
    Decidable (HomeLaw source expr before place after) :=
  inferInstanceAs (Decidable (_ → ∀ binding ∈ source.localAt? before expr, _))

/-- The step does not add the slot with this name to the function. -/
def WithoutSlot (func : FuncId) (text : String) (before after : Context) : Prop :=
  after.builder.target.hasSlot func text = true → before.builder.target.hasSlot func text = true

instance (func : FuncId) (text : String) (before after : Context) :
    Decidable (WithoutSlot func text before after) :=
  inferInstanceAs (Decidable (_ = true → _ = true))

namespace Monitor

/-- Guards the computation of places by one law, and the binding of parameters and locals by
another. -/
def guarding (places : ExprId → Context → Place → Context → Prop)
    (slots : Context → Context → Prop)
    [∀ expr before place after, Decidable (places expr before place after)]
    [∀ before after, Decidable (slots before after)] (alarm : Error) : Monitor :=
  ⟨fun expr => guarded (places expr) alarm, guarded (fun before _ after => slots before after) alarm⟩

/-- Raises the alarm when the place of a local is not the slot it is bound to. -/
def ofHomes (source : Source) (alarm : Error) : Monitor :=
  guarding (HomeLaw source) (fun _ _ => True) alarm

/-- Raises the alarm when the binding of a parameter or a local reserves a given slot. -/
def ofSlot (func : FuncId) (text : String) (alarm : Error) : Monitor :=
  guarding (fun _ _ _ _ => True) (WithoutSlot func text) alarm

/-- Raises the alarm when the binding of a parameter or a local reserves two slots with a name. -/
def ofCount (alarm : Error) : Monitor :=
  guarding (fun _ _ _ _ => True) AtMostOneSlot alarm

/-- Binding a name reserves at most one slot. -/
theorem silent_ofCount (alarm : Error) : (ofCount alarm).Silent where
  places _ _ := guarded_eq fun _ _ _ _ => trivial
  lets walk name mutable ty init value :=
    guarded_eq fun context => atMostOneSlot_bindSlot walk name mutable ty init value context
  params source taken param value :=
    guarded_eq fun context => atMostOneSlot_bindParam source taken param value context

end Monitor

/-! ### The pairing -/

/-- An error that ends both runs, or the alarm, where the plain run refuses an assignment. -/
def Refused (alarm : Error) (cause cause' : Error) : Prop :=
  cause' = cause ∨ cause = alarm ∧ ∃ span, cause' = .immutablePlace span

/-- A guarded run beside the plain run. A name whose address is taken is never bound to a value, and
every instruction meets `inst`. -/
@[reducible] def Diagonal.homes (inst : FuncId → Instruction → Prop) (namesSlots : Prop)
    (alarm : Error) (halts : Error → Prop) : Diagonal where
  invariant work := work.builder.target.Every inst fun _ => True
  sound _ _ := True
  typed _ _ := True
  bindable taken name binding :=
    ∀ value, binding = .value value ∨ binding = .param value → name ∉ taken
  mapped _ _ := True
  looksUp _ _ := True
  addresses taken name := name ∈ taken
  namesSlots := namesSlots
  excused := Refused alarm
  halts := halts

section Homes

variable {source : Source} {inst : FuncId → Instruction → Prop} {namesSlots : Prop} {alarm : Error}
  {halts : Error → Prop} {taken : List Name}

/-- A step of the builder keeps the law when what it adds meets the law. -/
theorem Diagonal.homes.keeps {α : Type} {action : BuildM α} {work : Work}
    (holds : work.builder.target.Every inst fun _ => True)
    (adds : Returns action work.builder fun _ after =>
      work.builder.Adds inst (fun _ => True) after) :
    Returns action work.builder fun _ after =>
      (Diagonal.homes inst namesSlots alarm halts).Keeps work { work with builder := after } :=
  adds.mono fun _ _ adds => .of_free (fun _ => trivial) (adds.every holds)

/-- Temporaries meet the law, and so do named slots where they may be reserved. -/
theorem Diagonal.homes.steady (temps : ∀ func number ty op, inst func ⟨.temp number, ty, op⟩)
    (slots : namesSlots → ∀ func other, inst func other) :
    (Diagonal.homes inst namesSlots alarm halts).Steady source where
  pardons _ := .inl rfl
  usable _ := .everything
  points _ := trivial
  plain outside := ⟨fun _ _ => outside, fun _ _ => outside⟩
  slots := nofun
  homed {_ _ value} member bindable := by
    rcases bindable with bindable | bindable
    · exact absurd member (bindable value (.inl rfl))
    · exact absurd member (bindable value (.inr rfl))
  emits holds _ _ _ := homes.keeps holds (Build.adds_emitTemp fun _ _ => temps _ _ _ _)
  reserves {work ty variableName} holds named _ := by
    refine homes.keeps holds (Build.adds_alloca fun func name start _ named' => ?_)
    cases variableName with
    | none =>
      obtain ⟨number, rfl⟩ := named'.temporary rfl
      exact temps _ _ _ _
    | some text => exact slots (named rfl) _ _
  stores holds _ _ _ := homes.keeps holds (Build.adds_store fun _ _ _ => temps _ _ _ _)
  pins holds := homes.keeps holds (Build.adds_pin _)
  opens holds := homes.keeps holds (Build.adds_newBlock _)
  starts holds := homes.keeps holds (Build.adds_ensureEntry _)
  moves holds := homes.keeps holds (Build.adds_positionAt _ _)
  closes holds _ _ := homes.keeps holds (Build.adds_terminate trivial)
  maps {work} ty holds _ after returned :=
    ⟨.of_free (fun _ => trivial) (holds.declares (.of_functions
      ((ensures_mapTypeWithin source source.typeDepth ty
        ⟨work.memo, work.builder.target⟩).of_ok returned).functions)), trivial, trivial⟩
  declares holds _ _ _ _ := homes.keeps holds Build.adds_declareFunction
  serves _ _ := ⟨trivial, trivial, fun _ _ _ => trivial⟩
  defines holds _ := Build.returns_declare fun _ _ declared => .of_free (fun _ => trivial)
    (holds.declares (.of_functions (Module.declareGlobal_elsewhere declared).2))
  texts _ _ := trivial
  constants _ _ _ _ _ := ⟨trivial, trivial⟩

/-! ### Guarded steps -/

variable {places : ExprId → Context → Place → Context → Prop} {slots : Context → Context → Prop}
  [∀ expr before place after, Decidable (places expr before place after)]
  [∀ before after, Decidable (slots before after)] {scope : ScopeId} {context context' : Context}

/-- Types are of no interest here. -/
theorem homes_fine (work work' : Work) (binding : Binding) :
    ((Diagonal.homes inst namesSlots alarm halts).pairing taken).Fine work work' binding := by
  cases binding with
  | slot address ty mutable => exact ⟨trivial, trivial, trivial⟩
  | _ => exact trivial

/-- A name is bound alike in both runs, unless the guard stops the first one. -/
theorem homes_guarded {action action' : LowerM Unit}
    (keeps : ∀ before after : Context, before.builder.target.Every inst (fun _ => True) →
      slots before after → after.builder.target.Every inst fun _ => True)
    (stops : ∀ before after, slots before after ∨ halts alarm)
    (paired : ((Diagonal.homes (fun _ _ => True) True alarm halts).pairing taken).Agrees scope
      action action' context context' fun _ _ _ => True) :
    ((Diagonal.homes inst namesSlots alarm halts).pairing taken).Agrees scope
      (guarded (fun before _ after => slots before after) alarm action) action' context context'
      fun _ _ _ => True := by
  intro rules
  have ended := paired ⟨⟨rules.holds.1, fun _ _ _ _ _ _ => ⟨fun _ _ => trivial, fun _ _ => trivial⟩⟩,
    rules.env, rules.here, rules.here', fun table member entry listed =>
      ⟨(rules.bound table member entry listed).1, homes_fine _ _ _⟩⟩
  cases run : action context with
  | ok result after =>
    cases run' : action' context' with
    | ok result' after' =>
      rw [run, run'] at ended
      obtain ⟨rules', later, same⟩ := ended
      by_cases obeyed : slots context after
      · rw [guarded_ok run obeyed]
        have kept := keeps context after rules.holds.2 obeyed
        exact ⟨⟨⟨rules'.holds.1, kept⟩, rules'.env, rules'.here, rules'.here',
          fun table member entry listed =>
            ⟨(rules'.bound table member entry listed).1, homes_fine _ _ _⟩⟩, fun _ _ => trivial, same⟩
      · rw [guarded_alarm run obeyed]
        exact (stops context after).resolve_left obeyed
    | error cause' after' =>
      rw [run, run'] at ended
      exact ended.elim
  | error cause after =>
    rw [guarded_error run]
    cases run' : action' context' with
    | ok result' after' =>
      rw [run, run'] at ended
      exact ended
    | error cause' after' =>
      rw [run, run'] at ended
      exact ended

end Homes

/-! ### Places of names -/

section Paths

variable {walk : Walk} {expr : ExprId} {context : Context} {name : Name} {span : Span} {ty : TypeId}

theorem lowerNodePlace_dead (dead : context.builder.cursor.isSome = false) :
    lowerNodePlace walk expr context = .ok .unreachable context := by
  have skipped : (!context.builder.cursor.isSome) = true := by rw [dead]; rfl
  unfold lowerNodePlace
  show (if !context.builder.cursor.isSome then _ else _ : LowerM Place) context = _
  rw [if_pos skipped]
  rfl

theorem lowerNodePlace_path (live : context.builder.cursor.isSome = true)
    (found : walk.program.arena.get? expr = some ⟨.path [name], span, ty⟩) :
    lowerNodePlace walk expr context = pathPlace walk [name] span context := by
  have reached : ¬ (!context.builder.cursor.isSome) = true := by rw [live]; exact Bool.false_ne_true
  have opened : walk.node expr = pure ⟨.path [name], span, ty⟩ := by
    unfold Walk.node
    rw [found]
  unfold lowerNodePlace
  rw [opened]
  show (if !context.builder.cursor.isSome then _ else _ : LowerM Place) context = _
  rw [if_neg reached]
  rfl

/-- The place of a name depends on what the name is bound to. -/
theorem pathPlace_eq (walk : Walk) (name : Name) (span : Span) (context : Context) :
    pathPlace walk [name] span context = (match context.env.resolve? name with
      | some (.slot address ty mutable) => pure ⟨address, ty, mutable⟩
      | some (.value value) => spill value (walk.text name)
      | some (.param value) => spill value (walk.text name)
      | none => globalPlace walk.toSource name span : LowerM Place) context := rfl

/-- A slot that is made on demand is immutable. -/
theorem returns_spill (value : Value) (variableName : Option String) :
    Returns (spill value variableName) context fun place after =>
      place.mutable = false ∧ after.builder.cursor = context.builder.cursor := by
  unfold spill
  rw [returns_bind]
  refine returns_build fun address first reserved => ?_
  dsimp only
  rw [returns_bind]
  refine returns_build fun _ second stored => returns_pure.2 ⟨rfl, ?_⟩
  have kept := ((Build.stays_alloca _ _ _).of_ok reserved).cursor
  have kept' := ((Build.stays_store _ _ _).of_ok stored).cursor
  exact kept'.trans kept

/-- Nothing is assigned through an immutable place. -/
theorem withTarget_refused {next : Place → LowerM Value} {place : Place} {after : Context}
    (placed : walk.place expr context = .ok place after)
    (live : after.builder.cursor.isSome = true) (immutable : place.mutable = false) :
    withTarget walk expr span next context = .error (.immutablePlace span) after := by
  unfold withTarget thenLive
  rw [run_bind placed]
  show (if after.builder.cursor.isSome then _ else _ : LowerM Value) after = _
  rw [if_pos live, if_neg (by rw [immutable]; exact Bool.false_ne_true)]
  rfl

end Paths

/-! ### Guarded places -/

section Guards

variable {source : Source} {inst : FuncId → Instruction → Prop} {namesSlots : Prop} {alarm : Error}
  {halts : Error → Prop} {taken : List Name}
  {places : ExprId → Context → Place → Context → Prop} {slots : Context → Context → Prop}
  [∀ expr before place after, Decidable (places expr before place after)]
  [∀ before after, Decidable (slots before after)] {scope : ScopeId} {context context' : Context}

/-- A guard that is obeyed may stand around either run. -/
theorem Pairing.Agrees.guarded {α : Type} {pairing : Pairing} {law : Context → α → Context → Prop}
    [∀ before result after, Decidable (law before result after)] {action action' : LowerM α}
    {post : α → Context → Context → Prop}
    (paired : pairing.Agrees scope action action' context context' post)
    (obeys : pairing.Rules scope context context' → Returns action context (law context)) :
    pairing.Agrees scope (guarded law alarm action) action' context context' post := by
  intro rules
  rw [guarded_eq_of_returns (obeys rules)]
  exact paired rules

/-- The place of a local whose address is taken is its slot. -/
theorem homeLaw_of_addressed {walk : Walk} {expr : ExprId} (here : walk.toSource = source)
    (addressed : ((Diagonal.homes inst namesSlots alarm halts).pairing taken).Addressed
      source.program.arena expr)
    (rules : ((Diagonal.homes inst namesSlots alarm halts).pairing taken).Rules scope context
      context') :
    Returns (lowerNodePlace walk expr) context (HomeLaw source expr context) := by
  subst here
  intro place after returned live binding bound
  unfold Source.localAt? at bound
  split at bound
  · next name span ty found =>
    have bindable := (rules.resolved bound).1
    rw [lowerNodePlace_path live found, pathPlace_eq, Option.mem_def.1 bound] at returned
    cases binding with
    | slot address ty mutable =>
      cases returned
      exact ⟨rfl, rfl⟩
    | value value => exact absurd (addressed name span ty found) (bindable value (.inl rfl))
    | param value => exact absurd (addressed name span ty found) (bindable value (.inr rfl))
  · cases bound

/-- Where no slot is made on demand, the place of a name is found alike in both runs. -/
theorem homes_place (taken : List Name) (scope : ScopeId)
    (steady : (Diagonal.homes inst False alarm halts).Steady source)
    {walk walk' : Walk} {part : ExprId} {name : Name} {span : Span} {ty : TypeId}
    (here : walk.toSource = source) (here' : walk'.toSource = source)
    (found : source.program.arena.get? part = some ⟨.path [name], span, ty⟩)
    (homed : context.builder.cursor.isSome = true → ∀ value,
      context.env.resolve? name ≠ some (.value value) ∧
        context.env.resolve? name ≠ some (.param value)) :
    ((Diagonal.homes inst False alarm halts).pairing taken).Agrees scope (lowerNodePlace walk part)
      (lowerNodePlace walk' part) context context
      ((Diagonal.homes inst False alarm halts).pairing taken).Places ∧
    Returns (lowerNodePlace walk part) context (HomeLaw source part context) := by
  have bindings : source.localAt? context part = context.env.resolve? name := by
    unfold Source.localAt?
    rw [found]
  cases live : context.builder.cursor.isSome with
  | false =>
    refine ⟨fun rules => ?_, fun place after _ reached => ?_⟩
    · rw [lowerNodePlace_dead live, lowerNodePlace_dead live]
      exact ⟨rules, fun _ => id, rfl, trivial, trivial, trivial⟩
    · rw [live] at reached
      cases reached
  | true =>
    subst here
    have opened := @lowerNodePlace_path walk part context name span ty live found
    have opened' := @lowerNodePlace_path walk' part context name span ty live (here' ▸ found)
    rw [pathPlace_eq] at opened opened'
    cases bound : context.env.resolve? name with
    | none =>
      rw [bound] at opened opened'
      have looked := @Pairing.Steady.globalPlace
        ((Diagonal.homes inst False alarm halts).pairing taken)
        ⟨walk.toSource, taken, walk.expr, walk.place⟩
        ⟨walk.program.arena, walk.program.items, walk.expr, walk.place⟩ scope context context
        (steady.pairing taken) name span trivial
      refine ⟨fun rules => ?_, fun place after _ _ binding member => ?_⟩
      · rw [opened, opened', here']
        exact looked rules
      · rw [bindings, bound] at member
        cases member
    | some binding =>
      cases binding with
      | slot address slotTy mutable =>
        rw [bound] at opened opened'
        refine ⟨fun rules => ?_, fun place after returned _ binding member => ?_⟩
        · rw [opened, opened']
          exact ⟨rules, fun _ => id, rfl, trivial, trivial, trivial⟩
        · rw [opened] at returned
          rw [bindings, bound] at member
          cases returned
          cases member
          exact ⟨rfl, rfl⟩
      | value value => exact absurd bound (homed live value).1
      | param value => exact absurd bound (homed live value).2

/-- The target of an assignment: a local that has no slot gets one, and is refused. -/
theorem homes_target (steady : (Diagonal.homes inst False alarm halts).Steady source)
    (weaker : ∀ expr before place after, HomeLaw source expr before place after →
      places expr before place after)
    {inner inner' walk walk' : Walk} {part : ExprId} {name : Name} {span nodeSpan : Span}
    {ty : TypeId} {next next' : Place → LowerM Value} (here : inner.toSource = source)
    (here' : inner'.toSource = source)
    (found : source.program.arena.get? part = some ⟨.path [name], nodeSpan, ty⟩)
    (placed : walk.place part = guarded (places part) alarm (lowerNodePlace inner part))
    (placed' : walk'.place part = lowerNodePlace inner' part)
    (rest : ∀ place after after',
      ((Diagonal.homes inst False alarm halts).pairing taken).Places place after after' →
      ((Diagonal.homes inst False alarm halts).pairing taken).Agrees scope (next place) (next' place)
        after after' ((Diagonal.homes inst False alarm halts).pairing taken).Yields) :
    ((Diagonal.homes inst False alarm halts).pairing taken).Agrees scope
      (withTarget walk part span next) (withTarget walk' part span next') context context'
      ((Diagonal.homes inst False alarm halts).pairing taken).Yields := by
  refine Pairing.Matches.of_rules fun rules => ?_
  obtain rfl := Diagonal.same_of_rules rules
  by_cases spills : context'.builder.cursor.isSome = true ∧ ∃ value,
    context'.env.resolve? name = some (.value value) ∨
      context'.env.resolve? name = some (.param value)
  · obtain ⟨live, value, bound⟩ := spills
    have demanded : ∀ walk : Walk, walk.toSource = source →
        lowerNodePlace walk part context' = spill value (source.names.text name) context' := by
      rintro walk rfl
      rw [lowerNodePlace_path live found, pathPlace_eq]
      rcases bound with bound | bound <;>
      · rw [bound]
        rfl
    intro _
    cases run : spill value (source.names.text name) context' with
    | error cause after =>
      have failed : walk.place part context' = .error cause after := by
        rw [placed, guarded_error ((demanded inner here).trans run)]
      have failed' : walk'.place part context' = .error cause after := by
        rw [placed', demanded inner' here', run]
      unfold withTarget thenLive
      rw [run_bind_error failed, run_bind_error failed']
      exact .inl (.inl rfl)
    | ok place after =>
      obtain ⟨immutable, cursor⟩ := returns_spill value _ place after run
      have live' : after.builder.cursor.isSome = true := cursor ▸ live
      have refused := @withTarget_refused walk' part context' span next' place after
        (by rw [placed', demanded inner' here', run]) live' immutable
      rw [refused]
      by_cases obeyed : places part context' place after
      · rw [@withTarget_refused walk part context' span next place after
          (by rw [placed, guarded_ok ((demanded inner here).trans run) obeyed]) live' immutable]
        exact .inl (.inl rfl)
      · have alarmed : walk.place part context' = .error alarm after := by
          rw [placed, guarded_alarm ((demanded inner here).trans run) obeyed]
        unfold withTarget thenLive
        rw [run_bind_error alarmed]
        exact .inl (.inr ⟨rfl, span, rfl⟩)
  · obtain ⟨paired, obeys⟩ := homes_place taken scope steady here here' found
      fun live value => ⟨fun bound => spills ⟨live, value, .inl bound⟩,
        fun bound => spills ⟨live, value, .inr bound⟩⟩
    refine (steady.pairing taken).withTarget span ?_ rest
    rw [placed, placed']
    exact paired.guarded fun _ place after returned => weaker _ _ _ _ (obeys place after returned)

/-- What a guarded run watches is done alike in the plain run, unless an assignment is refused. -/
theorem homes_watches (temps : ∀ func number ty op, inst func ⟨.temp number, ty, op⟩)
    (weaker : ∀ expr before place after, HomeLaw source expr before place after →
      places expr before place after)
    (keeps : ∀ before after : Context, before.builder.target.Every inst (fun _ => True) →
      slots before after → after.builder.target.Every inst fun _ => True)
    (stops : ∀ before after, slots before after ∨ halts alarm) :
    ((Diagonal.homes inst False alarm halts).pairing taken).Watches
      (.guarding places slots alarm) .idle source source taken := by
  have steady : (Diagonal.homes inst False alarm halts).Steady source :=
    Diagonal.homes.steady temps False.elim
  have free : (Diagonal.homes (fun _ _ => True) True alarm halts).Steady source :=
    Diagonal.homes.steady (fun _ _ _ _ => trivial) fun _ _ _ => trivial
  refine ⟨?_, fun _ => ?_, ?_, ?_⟩
  · intro walk twin scope context context' name mutable ty init value here here' there same sound
    subst here here'
    have free' : ((Diagonal.homes (fun _ _ => True) True alarm halts).pairing
        walk.addressTaken).Steady walk.toSource (walk.swap twin).toSource walk.addressTaken := by
      rw [there]
      exact free.pairing _
    exact homes_guarded keeps stops (free'.bindSlot trivial same fun _ _ => trivial)
  · exact homes_guarded keeps stops ((free.pairing _).bindParam rfl trivial trivial)
  · intro walk walk' scope context context' expr here addressed paired
    exact paired.guarded fun rules place after returned =>
      weaker _ _ _ _ (homeLaw_of_addressed here addressed rules place after returned)
  · intro inner inner' walk walk' scope context context' part name span node next next' here here'
      found shape found' hidden looked placed placed' rest
    obtain ⟨kind, nodeSpan, ty⟩ := node
    obtain rfl : kind = .path [name] := shape
    exact homes_target steady weaker here here' found placed placed' rest

/-- The names that a body needs the address of are taken, so the guards suit every program. -/
theorem homes_suits (temps : ∀ func number ty op, inst func ⟨.temp number, ty, op⟩)
    (weaker : ∀ expr before place after, HomeLaw source expr before place after →
      places expr before place after)
    (keeps : ∀ before after : Context, before.builder.target.Every inst (fun _ => True) →
      slots before after → after.builder.target.Every inst fun _ => True)
    (stops : ∀ before after, slots before after ∨ halts alarm) :
    (Diagonal.homes inst False alarm halts).Suits (.guarding places slots alarm) source := by
  refine ⟨fun taken => homes_watches temps weaker keeps stops,
    fun decl listed body given expr node below found => ⟨fun _ _ => trivial, ?_, ?_⟩,
    fun _ _ _ _ _ _ _ _ _ _ _ => trivial⟩
  · exact fun mutable operand borrow name span ty path =>
      Program.taken_of_borrow below found borrow path
  · intro base shape node' found' direct name span ty path
    cases found'.symm.trans path
    exact Program.taken_of_base below found shape path direct

theorem homes_lowerProgram (formed : source.WellFormed) (options : Options)
    (temps : ∀ func number ty op, inst func ⟨.temp number, ty, op⟩)
    (weaker : ∀ expr before place after, HomeLaw source expr before place after →
      places expr before place after)
    (keeps : ∀ before after : Context, before.builder.target.Every inst (fun _ => True) →
      slots before after → after.builder.target.Every inst fun _ => True)
    (stops : ∀ before after, slots before after ∨ halts alarm) :
    (Diagonal.homes inst False alarm halts).Concludes
      ((Monitor.guarding places slots alarm).lowerProgram source options)
      (lowerProgram source options) := by
  refine (Diagonal.homes.steady temps False.elim).lowerProgram formed
    (homes_suits temps weaker keeps stops) fun declared after returned => ?_
  obtain ⟨quietly, _⟩ := (ensures_declareProgram source _).of_ok returned
  exact (Module.Every.empty _).declares quietly.declares

end Guards

/-! ### Programs -/

/-- A run that guards the places of locals ends like the plain run, unless the plain run refuses an
assignment: then a local without a slot was given one. -/
theorem ofHomes_lowerProgram {source : Source} (formed : source.WellFormed) (options : Options)
    (alarm : Error) :
    (Monitor.ofHomes source alarm).lowerProgram source options = lowerProgram source options ∨
      (Monitor.ofHomes source alarm).lowerProgram source options = .error alarm ∧
        ∃ span, lowerProgram source options = .error (.immutablePlace span) := by
  have ended : (Diagonal.homes (fun _ _ => True) False alarm fun _ => False).Concludes
      ((Monitor.ofHomes source alarm).lowerProgram source options) (lowerProgram source options) :=
    homes_lowerProgram formed options (fun _ _ _ _ => trivial) (fun _ _ _ _ => id)
      (fun _ _ _ _ _ _ _ _ _ _ => ⟨fun _ _ => trivial, fun _ _ => trivial⟩) fun _ _ => .inl trivial
  cases run : (Monitor.ofHomes source alarm).lowerProgram source options <;>
    cases run' : lowerProgram source options <;> rw [run, run'] at ended
  · rcases ended with (rfl | ⟨rfl, span, rfl⟩) | impossible
    · exact .inl rfl
    · exact .inr ⟨rfl, span, rfl⟩
    · exact impossible.elim
  · exact ended.elim
  · exact ended.elim
  · exact .inl (congrArg Except.ok ended.1.symm)

/-- A slot with a name that an accepted program has was reserved when a parameter or a local was
bound. -/
theorem ofSlot_lowerProgram {source : Source} (formed : source.WellFormed) {options : Options}
    {target : Module} (returned : lowerProgram source options = .ok target) (alarm : Error)
    {func : FuncId} {text : String} (present : target.hasSlot func text = true) :
    (Monitor.ofSlot func text alarm).lowerProgram source options = .error alarm := by
  have temps : ∀ other number ty op, other = func →
      Instruction.isSlot text ⟨.temp number, ty, op⟩ = false := by
    intro other number ty op _
    rw [Instruction.isSlot, beq_false_of_ne (by simp), Bool.and_false]
  have ended : (Diagonal.homes (fun other inst => other = func → inst.isSlot text = false) False
      alarm fun cause => cause = alarm).Concludes
      ((Monitor.ofSlot func text alarm).lowerProgram source options)
      (lowerProgram source options) := by
    refine homes_lowerProgram formed options temps (fun _ _ _ _ _ => trivial)
      (fun before after every without => ?_) fun _ _ => .inr rfl
    rw [← Module.hasSlot_eq_false_iff] at every ⊢
    refine Bool.eq_false_iff.2 fun added => ?_
    rw [without added] at every
    cases every
  rw [returned] at ended
  cases run : (Monitor.ofSlot func text alarm).lowerProgram source options with
  | error cause =>
    rw [run] at ended
    rw [show cause = alarm from ended]
  | ok target' =>
    rw [run] at ended
    obtain ⟨rfl, work, every, rfl⟩ := ended
    rw [Module.hasSlot_eq_false_iff.2 every] at present
    cases present

end TreeLowering.Lowering
