/-
This file proves that all uses of the address of a local share one slot. Wherever a borrow, a field or
an index needs the address of a local, as the search for taken addresses sees it, the local is bound to
a slot. The address that is used is computed from this slot in the finished function, by one
instruction for each field and each index on the way.
-/

import TreeLowering.Proofs.Places.Writable
import TreeLowering.Proofs.Slots.Law
import TreeLowering.Proofs.Slots.Worklist

namespace TreeLowering.Ir

open TreeLowering.Tree

/-- How a function computes the address of a place that lies in a local. The slot of the local is the
address of the whole, and one instruction steps from a base to its field or its element. -/
inductive Function.Locates (function : Function) (program : Program) (slot : Value) :
    ExprId → Value → Prop
  | whole {expr : ExprId} {node : Node} {name : Name}
      (stored : program.arena.get? expr = some node) (path : node.kind = .path [name]) :
      Locates function program slot expr slot
  | part {expr base : ExprId} {node : Node} {whole : Value} {home ty : Ty} {indices : List Value}
      {id : BlockId} {name : ValueName} (stored : program.arena.get? expr = some node)
      (shape : node.kind.base? = some base) (own : Locates function program slot base whole)
      (computed : ⟨name, ty, .gep home whole indices⟩ ∈ function.code id) :
      Locates function program slot expr (.reg name ty)

/-- What a use of an address gives: a borrow gives the address itself, perhaps as a pointer of another
type, and a field or an element is loaded from there. -/
inductive Function.Gives (function : Function) (address : Value) : ExprKind → Value → Prop
  | borrow {mutable : Bool} {operand : ExprId} :
      Gives function address (.borrow mutable operand) address
  | recast {mutable : Bool} {operand : ExprId} {ty : Ty} {id : BlockId} {name : ValueName}
      (computed : ⟨name, ty, .cast .bitcast address⟩ ∈ function.code id) :
      Gives function address (.borrow mutable operand) (.reg name ty)
  | part {kind : ExprKind} {base : ExprId} {ty : Ty} {id : BlockId} {name : ValueName}
      (shape : kind.base? = some base)
      (loaded : ⟨name, ty, .load address⟩ ∈ function.code id) :
      Gives function address kind (.reg name ty)

theorem Function.Locates.mono {first second : Function} {program : Program} {slot address : Value}
    {expr : ExprId} (locates : first.Locates program slot expr address)
    (stays : ∀ id inst, inst.op.isLoad = false → inst ∈ first.code id → inst ∈ second.code id) :
    second.Locates program slot expr address := by
  induction locates with
  | whole stored path => exact .whole stored path
  | part stored shape _ computed inductionHypothesis =>
    exact .part stored shape inductionHypothesis (stays _ _ rfl computed)

end TreeLowering.Ir

namespace TreeLowering.Tree

variable {program : Program} {expr : ExprId} {name : Name} {depth : Nat}

/-- A type that is no reference has none to be peeled from it. -/
theorem peelReferences_of_plain {pool : TypePool} {ty : TypeId} (plain : pool.isReference ty = false) :
    pool.peelReferences ty = (ty, 0) := by
  have none : pool.pointee? ty = none := by
    rw [TypePool.isReference, Option.isSome_eq_false_iff, Option.isNone_iff_eq_none] at plain
    exact plain
  unfold TypePool.peelReferences
  cases pool.size with
  | zero => rfl
  | succ size => rw [TypePool.stripReferences, none]

/-- A place lies in a local when it is the local, or when its base lies there and is no reference. -/
theorem rootWithin_cases (root : program.rootWithin (depth + 1) expr = some name) :
    ∃ node, program.arena.get? expr = some node ∧ (node.kind = .path [name] ∨
      ∃ base inner, node.kind.base? = some base ∧ program.arena.get? base = some inner ∧
        program.types.isReference inner.ty = false ∧
        program.rootWithin depth base = some name) := by
  obtain ⟨node, stored, root⟩ := Option.bind_eq_some_iff.1 root
  refine ⟨node, stored, ?_⟩
  have deeper : ∀ {base : ExprId}, node.kind.base? = some base → (do
        let baseNode ← program.arena.get? base
        if program.types.isReference baseNode.ty then none else program.rootWithin depth base) =
      some name → ∃ base inner, node.kind.base? = some base ∧
        program.arena.get? base = some inner ∧ program.types.isReference inner.ty = false ∧
        program.rootWithin depth base = some name := by
    intro base shape root
    obtain ⟨inner, typed, root⟩ := Option.bind_eq_some_iff.1 root
    split at root
    · cases root
    · next plain => exact ⟨base, inner, shape, typed, Bool.eq_false_iff.2 plain, root⟩
  obtain ⟨kind, span, ty⟩ := node
  cases kind with
  | path segments =>
    rcases segments with _ | ⟨first, _ | ⟨second, rest⟩⟩
    · cases root
    · cases root
      exact .inl rfl
    · cases root
  | field base field => exact .inr (deeper rfl root)
  | index base position => exact .inr (deeper rfl root)
  | _ => cases root

end TreeLowering.Tree

namespace TreeLowering.Lowering

open TreeLowering.Ir TreeLowering.Tree

/-! ### Guards and calls -/

/-- Lowers a part in the given manner under the monitor. -/
def Monitor.lower (monitor : Monitor) (source : Source) : LevelsBy := fun taken fuel manner =>
  match manner with
  | .value => monitor.lowerWithin source taken fuel
  | .place => monitor.placeWithin source taken fuel

theorem Monitor.lower_body (monitor : Monitor) (source : Source) :
    (monitor.lower source).body source = monitor.lowerExpr source := by
  funext taken expr
  rw [LevelsBy.body, Monitor.lowerExpr]
  generalize source.exprDepth = fuel
  rfl

theorem mirrors_guarded {α : Type} {law : Context → α → Context → Prop}
    [∀ before result after, Decidable (law before result after)] (alarm : Error)
    (action : LowerM α) : Mirrors alarm action (guarded law alarm action) := by
  intro before
  cases run : action before with
  | ok result after =>
    by_cases obeyed : law before result after
    · exact .inl (guarded_ok run obeyed)
    · exact .inr ⟨after, guarded_alarm run obeyed⟩
  | error cause after => exact .inl (guarded_error run)

/-- A monitor that only stops at places raises an alarm in the calls for them. -/
theorem Monitor.Binds.alerts {monitor : Monitor} {alarm : Error} (binds : monitor.Binds)
    (mirrors : ∀ expr action, Mirrors alarm action (monitor.place expr action)) (source : Source) :
    Alerts alarm source (monitor.lower source) where
  zero _ manner _ := by cases manner <;> rfl
  level taken fuel manner part := by
    cases manner with
    | value => exact .of_eq (binds.lowerNode _ part)
    | place => exact mirrors part _

section Calls

variable {source : Source} {options : Options} {target : Module} {taken : List Name} {fuel : Nat}
  {expr base part : ExprId} {before middle after : Context} {place : Place} {value : Value}
  {node inner : Node} {name : Name} {binding : Binding} {alarm : Error}

theorem Monitor.binds_ofHomes (source : Source) (alarm : Error) :
    (Monitor.ofHomes source alarm).Binds where
  lets _ _ _ _ _ _ := guarded_eq fun _ _ _ _ => trivial
  params _ _ _ _ := guarded_eq fun _ _ _ _ => trivial

theorem Monitor.alerts_ofHomes (source : Source) (alarm : Error) :
    Alerts alarm source ((Monitor.ofHomes source alarm).lower source) :=
  (binds_ofHomes source alarm).alerts (fun _ => mirrors_guarded alarm) source

/-- A call that returns a place elsewhere than in the slot of a local trips. -/
theorem trips_of_astray (returned : placeWithin source taken fuel expr before = .ok place after)
    (broken : ¬ HomeLaw source expr before place after) :
    Call.Trips ⟨⟨.place, expr, before⟩, taken, fuel⟩ ((Monitor.ofHomes source alarm).lower source)
      alarm := by
  refine (Monitor.alerts_ofHomes source alarm).trips_of_returned returned fun fuel level => ⟨after, ?_⟩
  show (Monitor.ofHomes source alarm).placeWithin source taken (fuel + 1) expr before = _
  rw [Monitor.placeWithin]
  exact guarded_alarm level broken

/-- In an accepted program, every place of a local is the slot that the local is bound to. -/
theorem homeLaw_of_made (formed : source.WellFormed)
    (accepted : lowerProgram source options = .ok target)
    (made : MadeBy source options ⟨⟨.place, expr, before⟩, taken, fuel⟩)
    (returned : placeWithin source taken fuel expr before = .ok place after) :
    HomeLaw source expr before place after := by
  by_contra broken
  have binds := Monitor.binds_ofHomes source .malformedTree
  have alerts := Monitor.alerts_ofHomes source .malformedTree
  obtain ⟨last, raised⟩ := alerts.raises_of_trips made (trips_of_astray returned broken)
  rw [Monitor.lower_body, ← binds.lowerItems] at raised
  have guarded := ofHomes_lowerProgram formed options .malformedTree
  rw [accepted] at guarded
  rcases guarded with same | ⟨_, span, refused⟩
  · rw [Monitor.lowerProgram, raised] at same
    cases same
  · cases refused

/-! ### Parts -/

theorem typeOf_of_found {walk : Walk} (typed : walk.program.arena.get? base = some inner) :
    walk.typeOf base before = .ok inner.ty before := by
  unfold Walk.typeOf
  rw [node_of_found typed]
  rfl

/-- A base that is no reference is looked for first. -/
theorem lowerNodePlace_of_base {walk : Walk} {cause : Error} (live : before.Live)
    (stored : walk.program.arena.get? expr = some node) (shape : node.kind.base? = some base)
    (typed : walk.program.arena.get? base = some inner)
    (plain : walk.program.types.isReference inner.ty = false)
    (failed : walk.place base before = .error cause after) :
    lowerNodePlace walk expr before = .error cause after := by
  unfold lowerNodePlace
  refine (run_opened live stored).trans ?_
  have asked : walk.typeOf base before = .ok inner.ty before := typeOf_of_found typed
  obtain ⟨kind, span, ty⟩ := node
  cases kind with
  | field base' field =>
    cases shape
    show fieldPlace walk base field span before = _
    unfold fieldPlace
    rw [run_bind asked, peelReferences_of_plain plain]
    exact run_bind_error failed
  | index base' position =>
    cases shape
    show elementPlace walk base position span before = _
    unfold elementPlace
    rw [run_bind asked, peelReferences_of_plain plain]
    exact run_bind_error failed
  | _ => cases shape

theorem directly_base (live : before.Live) (stored : source.program.arena.get? expr = some node)
    (shape : node.kind.base? = some base) (typed : source.program.arena.get? base = some inner)
    (plain : source.program.types.isReference inner.ty = false) :
    Directly source ⟨⟨.place, expr, before⟩, taken, fuel + 1⟩ ⟨⟨.place, base, before⟩, taken, fuel⟩ :=
  ⟨rfl, rfl, fun alarm => ⟨before, lowerNodePlace_of_base live stored shape typed plain
    ((levels source taken fuel).refused_self alarm .place base before)⟩⟩

/-- A borrow, a field or an element is used at its address. -/
theorem lowerNode_of_place {walk : Walk} {cause : Error} (live : before.Live)
    (stored : walk.program.arena.get? expr = some node) (needs : node.kind.place? expr = some part)
    (failed : walk.place part before = .error cause after) :
    lowerNode walk expr before = .error cause after := by
  unfold lowerNode
  refine (run_opened live stored).trans ?_
  obtain ⟨kind, span, ty⟩ := node
  cases kind with
  | borrow | field | index =>
    cases needs
    exact run_bind_error failed
  | _ => cases needs

theorem directly_place (live : before.Live) (stored : source.program.arena.get? expr = some node)
    (needs : node.kind.place? expr = some part) :
    Directly source ⟨⟨.value, expr, before⟩, taken, fuel + 1⟩ ⟨⟨.place, part, before⟩, taken, fuel⟩ :=
  ⟨rfl, rfl, fun alarm => ⟨before, lowerNode_of_place live stored needs
    ((levels source taken fuel).refused_self alarm .place part before)⟩⟩

/-! ### Addresses -/

/-- What is emitted goes into the function being built. -/
theorem Builder.AtWork.emitted {now : Builder} (work : now.AtWork) (op : Operation) (ty : Ty) :
    Returns (Build.emitTemp op ty) now fun value after =>
      ∃ id name, value = .reg name ty ∧ ⟨name, ty, op⟩ ∈ after.body.code id := by
  refine Build.returns_emitTemp fun cursor positioned _ => ?_
  obtain ⟨here, has, _⟩ := work.cursor cursor positioned
  obtain ⟨block, found⟩ := Option.isSome_iff_exists.1 has
  obtain ⟨_, body⟩ := work.changed { now with
    nextTemp := now.nextTemp + 1
    target := now.target.modifyBlock cursor.func cursor.block fun found =>
      found.append ⟨.temp now.nextTemp, ty, op⟩ }
    (fun function => function.modifyBlock cursor.block fun found =>
      found.append ⟨.temp now.nextTemp, ty, op⟩) here rfl rfl
  refine ⟨cursor.block, .temp now.nextTemp, rfl, ?_⟩
  rw [body, Function.code_append found, if_pos rfl]
  exact List.mem_append_right _ List.mem_cons_self

/-- From behind the base of a place to the address of the place, nothing is lost that was emitted. -/
theorem locates_of_base {func : FuncId} {slot whole address : Value} {last : Context} {home ty : Ty}
    {indices : List Value}
    (poised : Poised func before.builder.Has before.env.frames middle)
    (stored : source.program.arena.get? expr = some node) (shape : node.kind.base? = some base)
    (own : middle.builder.body.Locates source.program slot base whole)
    (between : (∃ ty mapped, lowerType source ty middle = .ok mapped last) ∨
      ∃ position index, lowerWithin source taken fuel position middle = .ok index last)
    (computed : build (Build.gep home whole indices ty) last = .ok address after) :
    after.builder.body.Locates source.program slot expr address := by
  have steps : Builder.Spares before.builder.Has middle.builder last.builder := by
    rcases between with ⟨ty, mapped, typed⟩ | ⟨position, index, indexed⟩
    · have steady := Regime.between.steady source before.builder.Has middle.builder
      have keeps : Keeps (.between before.builder.Has middle.builder) id (lowerType source ty) middle
          _ := steady.lowerType
      obtain ⟨_, rules, _⟩ := (keeps poised.rules).of_ok typed
      exact rules.holds
    · exact (orderly_levels source taken fuel poised .value position _ _ indexed).2
  have emits := builder_of_build computed
  obtain ⟨id, name, rfl, inside⟩ := steps.work.emitted _ _ _ _ emits
  exact .part stored shape (own.mono (steps.emit _ _ _ _ emits).stays) inside

/-- In an accepted program, the address of a place that lies in a local is computed from the slot of
the local. -/
theorem locates_of_made (formed : source.WellFormed)
    (accepted : lowerProgram source options = .ok target) {depth : Nat}
    (made : MadeBy source options ⟨⟨.place, expr, before⟩, taken, fuel⟩) (live : before.Live)
    (root : source.program.rootWithin depth expr = some name)
    (bound : before.env.resolve? name = some binding)
    (returned : placeWithin source taken fuel expr before = .ok place after)
    (reached : after.Live) :
    ∃ slot home mutable, binding = .slot slot home mutable ∧
      after.builder.body.Locates source.program slot expr place.address := by
  induction depth generalizing expr fuel place after with
  | zero => cases root
  | succ depth inductionHypothesis =>
    obtain ⟨node, stored, path | ⟨base, inner, shape, typed, plain, root⟩⟩ := rootWithin_cases root
    · have listed : binding ∈ source.localAt? before expr := by
        obtain ⟨kind, span, ty⟩ := node
        cases path
        rw [Source.localAt?, stored]
        exact bound
      obtain ⟨rfl, _⟩ := homeLaw_of_made formed accepted made returned live binding listed
      exact ⟨_, _, _, rfl, .whole stored path⟩
    · cases fuel with
      | zero => cases returned
      | succ fuel =>
        rw [placeWithin] at returned
        obtain ⟨inner', span, whole, middle, typed', found, halfway, _, indices, last, between,
          computed⟩ := foundFrom_of_place stored shape live returned reached
        cases typed.symm.trans typed'
        rw [peelReferences_of_plain plain] at found
        have found : placeWithin source taken fuel base before = .ok whole middle := found
        have made' := made.part (directly_base live stored shape typed plain)
        obtain ⟨slot, home, mutable, bound, own⟩ := inductionHypothesis made' root found halfway
        obtain ⟨_, func, _, _, madeIn⟩ := madeBy_iff.1 made'
        obtain ⟨frames, spares⟩ :=
          orderly_levels source taken fuel (ready_of_made madeIn) .place base _ _ found
        exact ⟨slot, home, mutable, bound, locates_of_base
          ((ready_of_made madeIn).later frames spares) stored shape own between computed⟩

/-- What a use gives is got from the place that it uses. -/
theorem gives_of_node {walk : Walk} (live : before.Live)
    (stored : walk.program.arena.get? expr = some node) (needs : node.kind.place? expr = some part)
    (returned : lowerNode walk expr before = .ok value after) (reached : after.Live) :
    ∃ place middle, walk.place part before = .ok place middle ∧ middle.Live ∧
      (middle.builder.AtWork → after.builder.body.Gives place.address node.kind value) := by
  unfold lowerNode at returned
  replace returned := (run_opened live stored).symm.trans returned
  obtain ⟨kind, span, ty⟩ := node
  cases kind with
  | borrow mutable operand =>
    cases needs
    obtain ⟨place, middle, found, halfway, returned⟩ := thenLive_live returned reached
    refine ⟨place, middle, found, halfway, fun work => ?_⟩
    split at returned
    · cases returned
    · dsimp only at returned
      split at returned
      · cases returned
        exact .borrow
      · obtain ⟨id, name, rfl, inside⟩ := work.emitted _ _ _ _ (builder_of_build returned)
        exact .recast inside
  | field | index =>
    cases needs
    obtain ⟨place, middle, found, halfway, returned⟩ := thenLive_live returned reached
    refine ⟨place, middle, found, halfway, fun work => ?_⟩
    obtain ⟨id, name, rfl, inside⟩ := work.emitted _ _ _ _ (builder_of_build returned)
    exact .part rfl inside
  | _ => cases needs

end Calls

/-! ### Homes -/

/-- In the finished function, the address of a place is computed from the slot that a local is bound
to. -/
def AtHome (source : Source) (target : Module) (before : Context) (name : Name) (place : ExprId)
    (address : Value) : Prop :=
  ∃ slot home mutable func function, before.env.resolve? name = some (.slot slot home mutable) ∧
    before.builder.current = some func ∧ target.function? func = some function ∧
    function.Locates source.program slot place address

/-- Whatever needs the address of a local goes to the one slot of this local: the places that lie in
it, and the borrows, fields and elements that the search for taken addresses roots in it. -/
structure SharesHomes (source : Source) (options : Options) (target : Module) : Prop where
  places : ∀ {expr before taken fuel place after name},
    MadeBy source options ⟨⟨.place, expr, before⟩, taken, fuel⟩ → before.Live →
    placeWithin source taken fuel expr before = .ok place after → after.Live →
    source.program.placeRoot? expr = some name → (before.env.resolve? name).isSome = true →
    AtHome source target before name expr place.address
  uses : ∀ {expr node before taken fuel value after name},
    MadeBy source options ⟨⟨.value, expr, before⟩, taken, fuel⟩ → before.Live →
    lowerWithin source taken fuel expr before = .ok value after → after.Live →
    source.program.arena.get? expr = some node →
    source.program.takenBy? expr node.kind = some name →
    (before.env.resolve? name).isSome = true →
    ∃ place address, node.kind.place? expr = some place ∧
      AtHome source target before name place address ∧
      after.builder.body.Gives address node.kind value

theorem sharesHomes {source : Source} {options : Options} {target : Module}
    (formed : source.WellFormed) (accepted : lowerProgram source options = .ok target) :
    SharesHomes source options target := by
  have places : ∀ {expr before taken fuel place after name},
      MadeBy source options ⟨⟨.place, expr, before⟩, taken, fuel⟩ → before.Live →
      placeWithin source taken fuel expr before = .ok place after → after.Live →
      source.program.placeRoot? expr = some name → (before.env.resolve? name).isSome = true →
      AtHome source target before name expr place.address := by
    intro expr before taken fuel place after name made live returned reached root known
    obtain ⟨binding, bound⟩ := Option.isSome_iff_exists.1 known
    obtain ⟨slot, home, mutable, rfl, locates⟩ :=
      locates_of_made formed accepted made live root bound returned reached
    obtain ⟨func, last, ready, kept, spares⟩ := spared_of_made accepted made returned
    exact ⟨slot, home, mutable, func, last.body, bound, ready.here, kept, locates.mono spares.stays⟩
  refine ⟨places, ?_⟩
  intro expr node before taken fuel value after name made live returned reached stored needs known
  rw [Program.takenBy?_eq] at needs
  obtain ⟨part, needs, root⟩ := Option.bind_eq_some_iff.1 needs
  cases fuel with
  | zero => cases returned
  | succ fuel =>
    rw [lowerWithin] at returned
    obtain ⟨place, middle, found, halfway, gives⟩ :=
      gives_of_node live stored needs returned reached
    have made' := made.part (directly_place live stored needs)
    obtain ⟨_, _, _, _, madeIn⟩ := madeBy_iff.1 made'
    obtain ⟨_, spares⟩ :=
      orderly_levels source taken fuel (ready_of_made madeIn) .place part _ _ found
    exact ⟨part, place.address, needs, places made' live found halfway root known,
      gives spares.work⟩

/-! ### Programs -/

/-- The places of locals are the slots that the locals are bound to, each of which was reserved when
its local was bound, and every use of the address of a local goes to its slot. A local without a slot
is given one on demand only where its assignment is then refused. -/
theorem lowerProgram_homes {source : Source} (formed : source.WellFormed) (options : Options)
    (alarm : Error) :
    (∀ target, lowerProgram source options = .ok target →
      (Monitor.ofHomes source alarm).lowerProgram source options = .ok target ∧
        (∀ func text, target.hasSlot func text = true →
          (Monitor.ofSlot func text alarm).lowerProgram source options = .error alarm) ∧
        SharesHomes source options target) ∧
    (Monitor.ofCount alarm).lowerProgram source options = lowerProgram source options ∧
    ((Monitor.ofHomes source alarm).lowerProgram source options = lowerProgram source options ∨
      (Monitor.ofHomes source alarm).lowerProgram source options = .error alarm ∧
        ∃ span, lowerProgram source options = .error (.immutablePlace span)) := by
  have homes := ofHomes_lowerProgram formed options alarm
  refine ⟨fun target returned => ⟨?_, fun func text present =>
    ofSlot_lowerProgram formed returned alarm present, sharesHomes formed returned⟩,
    (Monitor.silent_ofCount alarm).lowerProgram source options, homes⟩
  rcases homes with same | ⟨_, span, refused⟩
  · rw [same, returned]
  · rw [returned] at refused
    cases refused

/-- `fn borrowing(limit: i32) -> i32 { let row = [limit, 2]; let near = &limit; row[0] + *near }` -/
def borrowing : Source where
  names := (((((((NameTable.initial.intern "borrowing").2).intern "limit").2).intern "row").2).intern
    "near").2
  program :=
    { types := ((TypePool.initial.intern (.array .i32 2)).2.intern (.reference .i32 false)).2
      scopes := .initial
      arena := ⟨#[⟨.path [⟨2⟩], .nowhere, .i32⟩, ⟨.int 2, .nowhere, .i32⟩,
        ⟨.array [⟨0⟩, ⟨1⟩], .nowhere, ⟨11⟩⟩, ⟨.path [⟨2⟩], .nowhere, .i32⟩,
        ⟨.borrow false ⟨3⟩, .nowhere, ⟨12⟩⟩, ⟨.path [⟨3⟩], .nowhere, ⟨11⟩⟩,
        ⟨.int 0, .nowhere, .usize⟩, ⟨.index ⟨5⟩ ⟨6⟩, .nowhere, .i32⟩,
        ⟨.path [⟨4⟩], .nowhere, ⟨12⟩⟩, ⟨.deref ⟨8⟩, .nowhere, .i32⟩,
        ⟨.binary .add ⟨7⟩ ⟨9⟩, .nowhere, .i32⟩,
        ⟨.block .root [.bind (.ident ⟨3⟩ false) ⟨11⟩ (some ⟨2⟩) .nowhere,
          .bind (.ident ⟨4⟩ false) ⟨12⟩ (some ⟨4⟩) .nowhere] (some ⟨10⟩), .nowhere, .i32⟩]⟩
      items := [.function
        { name := ⟨1⟩
          link := ⟨1⟩
          params := [⟨⟨2⟩, .i32, false, .nowhere⟩]
          ret := .i32
          body := some ⟨11⟩
          scope := .root
          span := .nowhere }] }

/-- `fn pointing(row: [i32; 2]) -> &i32 { &row[1] }` -/
def pointing : Source where
  names := ((NameTable.initial.intern "pointing").2.intern "row").2
  program :=
    { types := ((TypePool.initial.intern (.array .i32 2)).2.intern (.reference .i32 false)).2
      scopes := .initial
      arena := ⟨#[⟨.path [⟨2⟩], .nowhere, ⟨11⟩⟩, ⟨.int 1, .nowhere, .usize⟩,
        ⟨.index ⟨0⟩ ⟨1⟩, .nowhere, .i32⟩, ⟨.borrow false ⟨2⟩, .nowhere, ⟨12⟩⟩]⟩
      items := [.function
        { name := ⟨1⟩
          link := ⟨1⟩
          params := [⟨⟨2⟩, ⟨11⟩, false, .nowhere⟩]
          ret := ⟨12⟩
          body := some ⟨3⟩
          scope := .root
          span := .nowhere }] }

/-- Control gets to the borrow and behind it, and the parameter is bound there. -/
theorem pointing_made {target : Module} (accepted : lowerProgram pointing .standard = .ok target) :
    ∃ before taken fuel value after,
      MadeBy pointing .standard ⟨⟨.value, ⟨3⟩, before⟩, taken, fuel⟩ ∧ before.Live ∧
      lowerWithin pointing taken fuel ⟨3⟩ before = .ok value after ∧ after.Live ∧
      (before.env.resolve? ⟨2⟩).isSome = true := by
  obtain ⟨before, taken, fuel, value, after, made, live, returned⟩ :=
    madeBy_of_accepted accepted List.mem_cons_self rfl
  have calls : EveryCall pointing .standard fun expr before _ after => expr = ⟨3⟩ →
      after.builder.cursor.isSome = true ∧ (before.env.resolve? ⟨2⟩).isSome = true := by
    intro alarm
    cbv
  obtain ⟨passed, known⟩ := obeys_of_made calls made returned rfl
  exact ⟨before, taken, fuel + 1, value, after, made, live, returned, passed, known⟩

theorem borrowing_homes :
    (borrowing.WellFormed ∧ ∃ target, lowerProgram borrowing .standard = .ok target ∧
      target.hasSlot ⟨0⟩ "limit.addr" = true ∧ target.hasSlot ⟨0⟩ "row.addr" = true ∧
      (Monitor.ofHomes borrowing .malformedTree).lowerProgram borrowing .standard = .ok target ∧
      (Monitor.ofSlot ⟨0⟩ "row.addr" .malformedTree).lowerProgram borrowing .standard =
        .error .malformedTree) ∧
    pointing.WellFormed ∧ ∃ target before taken fuel value after address,
      lowerProgram pointing .standard = .ok target ∧
      MadeBy pointing .standard ⟨⟨.value, ⟨3⟩, before⟩, taken, fuel⟩ ∧ before.Live ∧
      lowerWithin pointing taken fuel ⟨3⟩ before = .ok value after ∧ after.Live ∧
      AtHome pointing target before ⟨2⟩ ⟨2⟩ address ∧
      after.builder.body.Gives address (.borrow false ⟨2⟩) value := by
  constructor
  · have formed : borrowing.WellFormed :=
      .of_ordered (.intern (.intern .initial (by simp)) (by simp)) (by decide +kernel) (by decide)
        ((((NameTable.Made.initial.intern _).intern _).intern _).intern _) (by decide +kernel)
        (by decide) (by decide +kernel)
    have returned : ∃ target, lowerProgram borrowing .standard = .ok target ∧
        target.hasSlot ⟨0⟩ "limit.addr" = true ∧ target.hasSlot ⟨0⟩ "row.addr" = true :=
      ⟨_, by cbv, by decide +kernel, by decide +kernel⟩
    obtain ⟨target, returned, limit, row⟩ := returned
    have homes := (lowerProgram_homes formed .standard .malformedTree).1 target returned
    exact ⟨formed, target, returned, limit, row, homes.1, homes.2.1 _ _ row⟩
  · have formed : pointing.WellFormed :=
      .of_ordered (.intern (.intern .initial (by simp)) (by simp)) (by decide +kernel) (by decide)
        ((NameTable.Made.initial.intern _).intern _) (by decide +kernel) (by decide)
        (by decide +kernel)
    have accepted : ∃ target, lowerProgram pointing .standard = .ok target := ⟨_, by cbv⟩
    obtain ⟨target, accepted⟩ := accepted
    obtain ⟨before, taken, fuel, value, after, made, live, returned, passed, known⟩ :=
      pointing_made accepted
    have shares := ((lowerProgram_homes formed .standard .malformedTree).1 target accepted).2.2
    have stored : pointing.program.arena.get? ⟨3⟩ = some ⟨.borrow false ⟨2⟩, .nowhere, ⟨12⟩⟩ := rfl
    obtain ⟨_, address, ⟨⟩, home, gives⟩ :=
      shares.uses made live returned passed stored rfl known
    exact ⟨formed, target, before, taken, fuel, value, after, address, accepted, made, live, returned,
      passed, home, gives⟩

end TreeLowering.Lowering
