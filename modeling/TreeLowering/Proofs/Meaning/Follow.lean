/-
This file proves how a finished function runs through the code that each step of the builder has
added, and how statements about parts of a run are put together. An evaluation that goes on after a
value corresponds to a run that goes on at the cursor; an evaluation that ends with a jump or a
result is done with the rest of the construct.
-/

import TreeLowering.Proofs.Meaning.Run

namespace TreeLowering.Tree

/-- Whether an evaluation that ends so has no value to go on with. -/
def Outcome.isAbrupt : Outcome → Bool
  | value _ => false
  | _ => true

namespace Evaluation

theorem andThen_eq_some {first : Evaluation} {next : Scalar → Evaluation} {locals locals' : Locals}
    {outcome : Outcome} (evaluated : first.andThen next locals = some (outcome, locals')) :
    (∃ scalar middle, first locals = some (.value scalar, middle) ∧
      next scalar middle = some (outcome, locals')) ∨
        outcome.isAbrupt = true ∧ first locals = some (outcome, locals') := by
  unfold andThen at evaluated
  split at evaluated
  · next scalar middle found => exact Or.inl ⟨scalar, middle, found, evaluated⟩
  · next other differs =>
    refine Or.inr ⟨?_, evaluated⟩
    cases outcome with
    | value scalar => exact absurd evaluated (differs scalar locals')
    | jump jump => rfl
    | result scalar => rfl

theorem given_eq_some {scalar : Option Scalar} {locals locals' : Locals} {outcome : Outcome}
    (evaluated : given scalar locals = some (outcome, locals')) :
    ∃ found, scalar = some found ∧ outcome = .value found ∧ locals' = locals := by
  obtain ⟨found, same, ended⟩ := Option.map_eq_some_iff.1 evaluated
  cases ended
  exact ⟨found, same, rfl, rfl⟩

theorem ends_eq_some {ended outcome : Outcome} {locals locals' : Locals}
    (evaluated : ends ended locals = some (outcome, locals')) :
    outcome = ended ∧ locals' = locals := by
  cases evaluated
  exact ⟨rfl, rfl⟩

end Evaluation

end TreeLowering.Tree

namespace TreeLowering.Lowering

open TreeLowering.Ir TreeLowering.Tree Builder

namespace Run

variable {run : Run} {site : Site} {now middle later : Builder} {id : BlockId}
  {previous : Option BlockId} {state before : State}

/-! ### Code -/

theorem reaches_refl (point : Point) : run.Reaches point point := Relation.ReflTransGen.refl

theorem Reaches.trans {first second third : Point} (earlier : run.Reaches first second)
    (later : run.Reaches second third) : run.Reaches first third :=
  Relation.ReflTransGen.trans earlier later

/-- Where the builder has added nothing, the point is the same. -/
theorem spot_of_plain (same : later.body.plain id = now.body.plain id) :
    run.spot later id previous state = run.spot now id previous state := by
  rw [spot, same, spot]

theorem spot_of_bare (bare : now.body.plain id = []) :
    run.spot now id previous state = run.start id previous state := by
  rw [spot, bare, start]
  rfl

/-- The instruction at the cursor is run. -/
theorem reaches_emit {inst : Instruction} {datum : Datum} {store : Store}
    (emits : Emits now later id inst) (grown : later.body.Extends run.function)
    (computed : run.setting.compute? previous inst.ty inst.op state = some (datum, store)) :
    run.Reaches (run.spot now id previous state)
      (run.spot later id previous (state.set inst.name datum store)) := by
  obtain ⟨rest, whole⟩ := grown.plain id
  rw [emits.plain, List.append_assoc] at whole
  have here : (run.spot now id previous state).rest = inst :: rest := by
    rw [spot, ← whole, List.drop_left, List.singleton_append]
  have there : (run.spot later id previous (state.set inst.name datum store)).rest = rest := by
    rw [spot, emits.plain, ← whole, List.length_append, ← List.drop_drop, List.drop_left]
    rfl
  refine Relation.ReflTransGen.single ?_
  rw [Setting.advance?, here]
  simp only [spot, Setting.execute?, computed] at there ⊢
  rw [there]
  rfl

theorem closed {terminator : Terminator} (exits : Exits now later id terminator)
    (grown : later.body.Extends run.function) :
    run.function.exit? id = some terminator ∧ (run.spot now id previous state).rest = [] := by
  obtain ⟨exit, whole⟩ := grown.closed id terminator exits.exit
  refine ⟨exit, ?_⟩
  rw [spot, whole, exits.plain, List.drop_length]

theorem enter_eq_start {target : BlockId} (inner : target ≠ Function.entryId) :
    run.function.enter id target state = run.start target (some id) state := by
  rw [Function.enter, run.arranged.inner target inner, start]

theorem reaches_jump {target : BlockId} (exits : Exits now later id (.jump target))
    (grown : later.body.Extends run.function) (inner : target ≠ Function.entryId) :
    run.Reaches (run.spot now id previous state) (run.start target (some id) state) := by
  obtain ⟨exit, rest⟩ := closed exits grown
  refine Relation.ReflTransGen.single ?_
  have stepped : run.setting.advance? run.function (run.spot now id previous state) =
      some (.running (run.function.enter id target state)) := by
    rw [Setting.advance?, rest]
    simp only [spot, exit]
    rfl
  rw [stepped, enter_eq_start inner]

theorem reaches_branch {test : Value} {thenBlock elseBlock : BlockId} {truth : Bool}
    (exits : Exits now later id (.branch test thenBlock elseBlock))
    (grown : later.body.Extends run.function) (innerThen : thenBlock ≠ Function.entryId)
    (innerElse : elseBlock ≠ Function.entryId) (shows : run.Shows state test (.bool truth)) :
    run.Reaches (run.spot now id previous state)
      (run.start (if truth then thenBlock else elseBlock) (some id) state) := by
  obtain ⟨exit, rest⟩ := closed exits grown
  refine Relation.ReflTransGen.single ?_
  have decided : run.setting.operand? state.regs test = some (Datum.bool truth) := shows.datum
  rw [Setting.advance?, rest]
  simp only [spot, exit, Option.bind_eq_bind, Option.bind_some, decided]
  cases truth with
  | true =>
    rw [if_pos rfl, enter_eq_start innerThen]
    rfl
  | false =>
    rw [if_neg (by decide), if_pos rfl, enter_eq_start innerElse]
    rfl

theorem finishes_nothing (exits : Exits now later id (.ret none))
    (grown : later.body.Extends run.function) :
    run.Finishes (run.spot now id previous state) none := by
  obtain ⟨exit, rest⟩ := closed exits grown
  refine ⟨1, state.store, ?_⟩
  rw [Setting.finish?, Setting.advance?, rest]
  simp only [spot, exit]
  rfl

theorem finishes_value {value : Value} {datum : Datum}
    (exits : Exits now later id (.ret (some value))) (grown : later.body.Extends run.function)
    (found : run.setting.operand? state.regs value = some datum) :
    run.Finishes (run.spot now id previous state) (some datum) := by
  obtain ⟨exit, rest⟩ := closed exits grown
  refine ⟨1, state.store, ?_⟩
  rw [Setting.finish?, Setting.advance?, rest]
  simp only [spot, exit, Option.bind_eq_bind, Option.bind_some, found]
  rfl

/-- A function without a result returns nothing, and any other the scalar that its operand shows. -/
theorem finishes_scalar {value : Value} {scalar : Scalar} {ret : Prim}
    (exits : Exits now later id (.ret (if (Ty.prim ret).isVoid then none else some value)))
    (grown : later.body.Extends run.function) (same : scalar.prim = ret)
    (shows : run.Shows state value scalar) :
    run.Finishes (run.spot now id previous state) scalar.returned := by
  subst same
  unfold Scalar.returned
  have void : (Ty.prim scalar.prim).isVoid = scalar.prim.isVoid := rfl
  rw [void] at exits
  split_ifs at exits ⊢
  · exact finishes_nothing exits grown
  · exact finishes_value exits grown shows.datum

/-! ### Registers -/

/-- Setting a new register keeps what was there. -/
theorem Kept.set {name : ValueName} {body : Function} {scopes : Scopes Binding} {datum : Datum}
    (fresh : ¬ body.Sets name) : run.Kept body scopes state (state.set name datum state.store) :=
  ⟨fun other sets => if_neg fun (same : other = name) => fresh (same ▸ sets), fun _ _ _ _ => rfl⟩

/-- The register that an instruction sets is no slot. -/
theorem unslotted {inst : Instruction} (emits : Emits now later id inst)
    (grown : later.body.Extends run.function) :
    ∀ slot ∈ run.function.slots, slot.name ≠ inst.name := by
  intro slot member same
  refine run.arranged.apart id inst ((grown.plain id).subset ?_) slot member same.symm
  rw [emits.plain]
  simp

theorem Holds.set {inst : Instruction} {locals : Locals} {datum : Datum} {store : Store}
    (holds : run.Holds site locals state) (bound : Bound now.body site)
    (emits : Emits now later id inst) (grown : later.body.Extends run.function)
    (bytes : store.bytes = state.store.bytes) :
    run.Holds site locals (state.set inst.name datum store) :=
  holds.of_same bound (fun slot member => if_neg (unslotted emits grown slot member))
    (fun name sets => if_neg fun (same : name = inst.name) => emits.fresh (same ▸ sets)) fun _ _ _ =>
      congrFun bytes _

/-- An instruction that computes a scalar shows it. -/
theorem Shows.set {inst : Instruction} {scalar : Scalar} {store : Store}
    (typed : inst.ty = .prim scalar.prim) :
    run.Shows (state.set inst.name scalar.datum store) (.reg inst.name inst.ty) scalar :=
  ⟨typed, if_pos rfl⟩

/-! ### Runs in a row -/

theorem Comes.after {body : Function} {scopes : Scopes Binding} {point next : Point}
    {place : Option BlockId → State → Point} {good : State → Prop}
    (comes : run.Comes body scopes state next place good) (reaches : run.Reaches point next)
    (kept : run.Kept body scopes before state) : run.Comes body scopes before point place good := by
  obtain ⟨previous, after, further, kept', holds⟩ := comes
  exact ⟨previous, after, reaches.trans further, kept.trans kept', holds⟩

theorem Comes.rebase {body body' : Function} {scopes scopes' : Scopes Binding} {point : Point}
    {place : Option BlockId → State → Point} {good : State → Prop}
    (comes : run.Comes body' scopes' state point place good) (grown : body.Extends body')
    (covered : ∀ slot ∈ body.slots, slot.name ∈ slotNames scopes' → slot.name ∈ slotNames scopes) :
    run.Comes body scopes state point place good := by
  obtain ⟨previous, after, reaches, kept, holds⟩ := comes
  exact ⟨previous, after, reaches, kept.rebase grown covered, holds⟩

theorem Comes.mono {body : Function} {scopes : Scopes Binding} {point : Point}
    {place : Option BlockId → State → Point} {good good' : State → Prop}
    (comes : run.Comes body scopes state point place good) (weaker : ∀ state, good state → good' state) :
    run.Comes body scopes state point place good' := by
  obtain ⟨previous, after, reaches, kept, holds⟩ := comes
  exact ⟨previous, after, reaches, kept, weaker after holds⟩

section Ends

variable {value value' : Value} {prim prim' : Prim} {done done' left : Locals → State → Prop}
  {outcome : Outcome} {locals : Locals} {point next : Point}

/-- What is left to do after a part of a run is left to do from its beginning on. -/
theorem Ends.after {site' : Site}
    (ends : run.Ends site' middle next state later value prim done left outcome locals)
    (alike : site.Alike site') (grown : now.body.Extends middle.body)
    (covered : ∀ slot ∈ now.body.slots, slot.name ∈ slotNames site'.env.scopes →
      slot.name ∈ slotNames site.env.scopes)
    (reaches : run.Reaches point next) (kept : run.Kept now.body site.env.scopes before state) :
    run.Ends site now point before later value prim done left outcome locals := by
  cases outcome with
  | value scalar =>
    obtain ⟨typed, inhabited, block, here, comes⟩ := ends
    exact ⟨typed, inhabited, block, here, (comes.rebase grown covered).after reaches kept⟩
  | jump jump =>
    refine ⟨fun leaves => alike.leaves ▸ ends.1 leaves, fun target found => ?_⟩
    have comes := ends.2 target ((alike.target? jump).trans found)
    exact (comes.rebase grown covered).after reaches kept
  | result scalar => exact ⟨ends.1.trans alike.ret, reaches.finishes ends.2⟩

/-- A part that ends without a value ends the whole. -/
theorem Ends.abrupt (ends : run.Ends site now point before middle value prim done left outcome locals)
    (abrupt : outcome.isAbrupt = true) :
    run.Ends site now point before later value' prim' done' left outcome locals := by
  cases outcome with
  | value scalar => cases abrupt
  | jump jump => exact ends
  | result scalar => exact ends

/-- What is left to do from where control gets to is left to do before. -/
theorem Ends.reached (ends : run.Ends site now next state later value prim done left outcome locals)
    (reaches : run.Reaches point next) :
    run.Ends site now point state later value prim done left outcome locals :=
  ends.after (.refl site) (.refl _) (fun _ _ member => member) reaches (.refl _ _ _ _)

/-- What a part of the code does is done from an earlier state of the builder on. -/
theorem Ends.rebase (ends : run.Ends site middle point state later value prim done left outcome locals)
    (grown : now.body.Extends middle.body) :
    run.Ends site now point state later value prim done left outcome locals :=
  ends.after (.refl site) grown (fun _ _ member => member) (reaches_refl _) (.refl _ _ _ _)

/-- A part that ends with a value goes on at the cursor. -/
theorem Ends.onward
    (ends : run.Ends site now point before middle value prim done left outcome locals)
    (rest : ∀ scalar id previous state, outcome = .value scalar → scalar.prim = prim →
      prim ≠ .never → middle.here? = some id → run.Shows state value scalar → done locals state →
      run.Ends site now (run.spot middle id previous state) state later value' prim' done' left outcome
        locals) :
    run.Ends site now point before later value' prim' done' left outcome locals := by
  cases outcome with
  | value scalar =>
    obtain ⟨typed, inhabited, id, here, previous, state, reaches, kept, shows, holds⟩ := ends
    exact (rest scalar id previous state rfl typed inhabited here shows holds).after (.refl site)
      (.refl _) (fun _ _ member => member) reaches kept
  | jump jump => exact ends
  | result scalar => exact ends

end Ends

/-- The last instruction of a construct computes its value. -/
theorem ends_emit {inst : Instruction} {scalar : Scalar} {prim : Prim} {locals : Locals}
    {left : Locals → State → Prop} (emits : Emits now later id inst)
    (grown : later.body.Extends run.function) (bound : Bound now.body site)
    (holds : run.Holds site locals state)
    (computed : run.setting.compute? previous inst.ty inst.op state =
      some (scalar.datum, state.store))
    (typed : inst.ty = .prim scalar.prim) (same : scalar.prim = prim) (inhabited : prim ≠ .never) :
    run.Ends site now (run.spot now id previous state) state later (.reg inst.name inst.ty) prim
      (run.Holds site) left (.value scalar) locals :=
  ⟨same, inhabited, id, emits.here, previous, _, reaches_emit emits grown computed,
    .set emits.fresh, .set typed, holds.set bound emits grown rfl⟩

/-- An operand that was there before is a value. -/
theorem ends_shows {value : Value} {scalar : Scalar} {prim : Prim} {locals : Locals}
    {left : Locals → State → Prop} (stays : Stays now later) (here : now.here? = some id)
    (holds : run.Holds site locals state) (shows : run.Shows state value scalar)
    (same : scalar.prim = prim) (inhabited : prim ≠ .never) :
    run.Ends site now (run.spot now id previous state) state later value prim (run.Holds site) left
      (.value scalar) locals := by
  refine ⟨same, inhabited, id, stays.here.trans here, previous, state, ?_, .refl _ _ _ _, shows, holds⟩
  rw [spot_of_plain (by rw [stays.body])]
  exact reaches_refl _

theorem Simulates.weaken {evaluation : Evaluation} {value : Value} {prim : Prim}
    {carried carried' : State → Prop}
    (simulates : run.Simulates site now later carried value prim evaluation)
    (stronger : ∀ state, carried' state → carried state) :
    run.Simulates site now later carried' value prim evaluation :=
  fun locals outcome locals' evaluated id previous state here holds carries =>
    simulates locals outcome locals' evaluated id previous state here holds (stronger state carries)

/-- Goes on with the value of a part, and with what is known of the state before it. -/
theorem Simulates.andThen {first : Evaluation} {next : Scalar → Evaluation} {value value' : Value}
    {prim prim' : Prim} {carried : State → Prop}
    (part : run.Simulates site now middle carried value prim first)
    (grown : now.body.Extends middle.body)
    (stable : ∀ before after, run.Kept now.body site.env.scopes before after → carried before →
      carried after)
    (rest : ∀ scalar, scalar.prim = prim → prim ≠ .never → run.Simulates site middle later
      (fun state => carried state ∧ run.Shows state value scalar) value' prim' (next scalar)) :
    run.Simulates site now later carried value' prim' (first.andThen next) := by
  intro locals outcome locals' evaluated id previous state here holds carries
  rcases Evaluation.andThen_eq_some evaluated with ⟨scalar, between, first, second⟩ | ⟨abrupt, first⟩
  · obtain ⟨typed, inhabited, id', here', previous', state', reaches, kept, shows, holds'⟩ :=
      part _ _ _ first id previous state here holds carries
    have ends := rest scalar typed inhabited _ _ _ second id' previous' state' here' holds'
      ⟨stable _ _ kept carries, shows⟩
    exact ends.after (.refl site) grown (fun _ _ member => member) reaches kept
  · exact (part _ _ _ first id previous state here holds carries).abrupt abrupt

/-- Where a part leaves no block behind to go on in, its value is never found. -/
theorem Simulates.dead {first : Evaluation} {next : Scalar → Evaluation} {value value' : Value}
    {prim prim' : Prim} {carried : State → Prop}
    (part : run.Simulates site now later carried value prim first) (nowhere : later.here? = none) :
    run.Simulates site now later carried value' prim' (first.andThen next) := by
  intro locals outcome locals' evaluated id previous state here holds carries
  rcases Evaluation.andThen_eq_some evaluated with ⟨scalar, between, first, second⟩ | ⟨abrupt, first⟩
  · obtain ⟨_, _, id', here', _⟩ := part _ _ _ first id previous state here holds carries
    rw [nowhere] at here'
    cases here'
  · exact (part _ _ _ first id previous state here holds carries).abrupt abrupt

end Run

end TreeLowering.Lowering
