/-
This file proves that casts compute what the conversions compute one after another. A cast to the type
that its operand already has emits nothing, and any other cast adds one instruction behind what its
operand has emitted. So a chain of casts, however long, adds one instruction for each change of the
type, and these lead from the pattern of a number to the pattern of the number that remains when it is
wrapped to each type in turn.
-/

import TreeLowering.Proofs.Calls.Recall
import TreeLowering.Proofs.Calls.Unfold
import TreeLowering.Proofs.Casts.Pattern

namespace TreeLowering.Tree

open TreeLowering.Ir

/-- From one expression on, casts to the given types lead to another expression. -/
inductive Program.Casts (program : Program) : ExprId → List Prim → ExprId → Prop where
  | done (expr : ExprId) : program.Casts expr [] expr
  | cast {operand expr last : ExprId} {span : Span} {ty : TypeId} {target : Prim}
      {targets : List Prim} (stored : program.arena.get? expr = some ⟨.cast operand, span, ty⟩)
      (typed : program.primitive? ty = some target) (rest : program.Casts expr targets last) :
      program.Casts operand (target :: targets) last

end TreeLowering.Tree

namespace TreeLowering.Lowering

open TreeLowering.Ir TreeLowering.Tree

/-! ### What casts add -/

/-- The types in a chain that differ from the type before. -/
def changes (found : Prim) : (targets : List Prim) → List Prim
  | [] => []
  | target :: targets => (if found = target then [] else [target]) ++ changes target targets

/-- Instructions are added at the cursor, and the function is the same otherwise. -/
structure Builder.Appends (insts : List Instruction) (before after : Builder) : Prop where
  cursor : after.cursor = before.cursor
  current : after.current = before.current
  code : ∀ id, after.body.code id =
    before.body.code id ++ if before.here? = some id then insts else []
  exits : ∀ id, after.body.exit? id = before.body.exit? id

/-- A value of the type `found` was converted through the types by the instructions that were added. -/
structure Converted (found : Prim) (targets : List Prim) (value result : Value)
    (insts : List Instruction) (before after : Context) : Prop where
  live : after.Live
  ty : result.ty = .prim (targets.getLastD found)
  appends : before.builder.Appends insts after.builder
  /-- There is an instruction for each change of the type. -/
  types : insts.map Instruction.ty = (changes found targets).map .prim
  /-- The result holds what remains of the number when it is converted step by step. -/
  computes : ∀ held number, found.Represents number → held value = some (found.pattern number) →
    ∃ held', convertAll? insts held = some held' ∧
      held' result = some ((targets.getLastD found).pattern
        (targets.foldl (fun number target => target.wrap number) number))

namespace Builder

variable {now later last : Builder} {insts insts' : List Instruction}

theorem Appends.refl (now : Builder) : Builder.Appends [] now now :=
  ⟨rfl, rfl, fun id => by rw [ite_self, List.append_nil], fun _ => rfl⟩

theorem Appends.trans (first : Builder.Appends insts now later)
    (second : Builder.Appends insts' later last) : Builder.Appends (insts ++ insts') now last where
  cursor := second.cursor.trans first.cursor
  current := second.current.trans first.current
  code id := by
    have here : later.here? = now.here? := congrArg (Option.map Cursor.block) first.cursor
    rw [second.code, first.code, here]
    split_ifs
    · rw [List.append_assoc]
    · rw [List.append_nil, List.append_nil]
  exits id := (second.exits id).trans (first.exits id)

/-- Where there is a cursor, an instruction can be added to its block. -/
theorem AtWork.emitTemp {cursor : Cursor} (work : now.AtWork) (positioned : now.cursor = some cursor)
    (op : Operation) (ty : Ty) :
    ∃ later, Build.emitTemp op ty now = .ok (.reg (.temp now.nextTemp) ty) later ∧ later.AtWork ∧
      Builder.Appends [⟨.temp now.nextTemp, ty, op⟩] now later := by
  obtain ⟨current, has, opened⟩ := work.cursor cursor positioned
  obtain ⟨block, found⟩ := Option.isSome_iff_exists.1 has
  let inst : Instruction := ⟨.temp now.nextTemp, ty, op⟩
  let named : Builder := { now with nextTemp := now.nextTemp + 1 }
  let later : Builder := { named with
    target := now.target.modifyBlock cursor.func cursor.block fun found => found.append inst }
  have point : Build.insertionPoint named = .ok cursor named := run_insertionPoint positioned
  have asked : Build.ask (fun target => target.checkOpen cursor.func cursor.block) named =
      .ok () named := by
    rw [Build.ask, Module.checkOpen_of_found (work.found current) has opened]
  have emitted : Build.emitTemp op ty now = .ok inst.result later := by
    have fresh : Build.freshName now = .ok (.temp now.nextTemp) named := rfl
    unfold Build.emitTemp
    rw [run_bind fresh, Build.append, run_bind point, Build.appendAt, run_bind asked]
    rfl
  have body : later.body = now.body.modifyBlock cursor.block fun found => found.append inst :=
    (work.changed later (fun function => function.modifyBlock cursor.block fun found =>
      found.append inst) current rfl rfl).2
  have spares : Spares (fun _ => False) now later := (Spares.refl work).emit op ty _ _ emitted
  refine ⟨later, emitted, spares.work, rfl, rfl, fun id => ?_, fun id => ?_⟩
  · have here : now.here? = some cursor.block := congrArg (Option.map Cursor.block) positioned
    rw [body, Function.code_append found, here]
    by_cases same : id = cursor.block
    · rw [if_pos same, if_pos (congrArg some same.symm), same]
    · rw [if_neg same, if_neg fun here => same (Option.some.inj here).symm, List.append_nil]
  · rw [body]
    exact Function.exit?_modifyBlock_of_same _ _ _ fun _ => rfl

end Builder

/-! ### Chains of casts -/

section Casts

variable {source : Source} {options : Options} {taken : List Name} {fuel : Nat}
  {operand expr bottom top : ExprId} {span : Span} {ty : TypeId} {found target : Prim}
  {targets : List Prim} {before middle after : Context} {value result : Value}
  {insts insts' : List Instruction}

namespace Converted

theorem refl (live : middle.Live) (typed : value.ty = .prim found) :
    Converted found [] value value [] middle middle :=
  ⟨live, typed, .refl _, rfl, fun held _ _ holds => ⟨held, rfl, holds⟩⟩

/-- A cast to an integer type, and then others. -/
theorem cons {last : Value} {final : Context}
    (first : Converted found [target] value result insts middle after)
    (integer : target.isInteger = true)
    (rest : Converted target targets result last insts' after final) :
    Converted found (target :: targets) value last (insts ++ insts') middle final where
  live := rest.live
  ty := by
    rw [List.getLastD_cons]
    exact rest.ty
  appends := first.appends.trans rest.appends
  types := by
    rw [List.map_append, first.types, rest.types, ← List.map_append, changes, changes, changes,
      List.append_nil]
  computes held number represented holds := by
    obtain ⟨held', ran, holds'⟩ := first.computes held number represented holds
    obtain ⟨held'', ran', holds''⟩ := rest.computes held' (target.wrap number)
      (Prim.represents_wrap integer number) holds'
    refine ⟨held'', by rw [convertAll?_append, ran, Option.bind_some, ran'], ?_⟩
    rw [List.getLastD_cons, List.foldl_cons]
    exact holds''

end Converted

/-- Where a cast returns, its operand has returned. -/
theorem operand_of_cast (live : before.Live)
    (stored : source.program.arena.get? expr = some ⟨.cast operand, span, ty⟩)
    (returned : lowerWithin source taken (fuel + 1) expr before = .ok value after) :
    ∃ value middle, lowerWithin source taken fuel operand before = .ok value middle := by
  rw [lowerWithin, lowerNode_cast live stored] at returned
  obtain ⟨value, middle, lowered, _⟩ := thenLive_ok returned
  exact ⟨value, middle, lowered⟩

/-- A cast of a scalar to an integer type returns, and converts what its operand has emitted. -/
theorem converted_of_cast (stored : source.program.arena.get? expr = some ⟨.cast operand, span, ty⟩)
    (typed : source.program.primitive? ty = some target) (integer : target.isInteger = true)
    (live : before.Live) (lowered : lowerWithin source taken fuel operand before = .ok value middle)
    (reached : middle.Live) (work : middle.builder.AtWork) (recalls : middle.memo.Recalls source)
    (scalar : value.ty = .prim found) (solid : found.isVoid = false) :
    ∃ result insts after, lowerWithin source taken (fuel + 1) expr before = .ok result after ∧
      after.builder.AtWork ∧ after.memo.Recalls source ∧
      Converted found [target] value result insts middle after := by
  obtain ⟨memo, mapped, recalls'⟩ := run_lowerType_primitive recalls typed
  have entered : lowerWithin source taken (fuel + 1) expr before =
      lowerCast (levels source taken fuel) operand ty span before :=
    lowerNode_cast live stored
  rw [lowerCast, Walk.withValue, run_thenLive lowered reached, run_bind mapped, scalar] at entered
  by_cases same : found = target
  · subst same
    rw [if_pos rfl] at entered
    refine ⟨value, [], _, entered, work, recalls', reached, scalar, .refl _, ?_,
      fun contents number _ holds => ⟨contents, rfl, ?_⟩⟩
    · rw [changes, if_pos rfl]
      rfl
    · exact holds.trans (congrArg some (Prim.pattern_wrap found number).symm)
  · have possible : castKind? (.prim found) (.prim target) = some (scalarCast found target) := by
      rw [castKind?, solid, Prim.isVoid_of_integer integer]
      rfl
    obtain ⟨cursor, positioned⟩ := Option.isSome_iff_exists.1 reached
    obtain ⟨builder, emitted, work', appends⟩ :=
      work.emitTemp positioned (.cast (scalarCast found target) value) (.prim target)
    rw [if_neg fun equal => same (Ty.prim.inj equal), possible] at entered
    refine ⟨_, _, _, entered.trans (build_ok emitted), work', recalls', ?_, rfl, appends, ?_,
      fun contents number represented holds => ?_⟩
    · exact (congrArg Option.isSome appends.cursor).trans reached
    · rw [changes, if_neg same]
      rfl
    · obtain ⟨contents', converted, holds'⟩ := Instruction.convert?_cast represented holds target
      refine ⟨contents', ?_, holds'⟩
      rw [convertAll?, converted]
      rfl

/-- A chain of casts to integer types returns when what it starts from returns a scalar. -/
theorem converted_of_casts (nested : source.program.Casts bottom targets top)
    (integers : ∀ target ∈ targets, target.isInteger = true) (live : before.Live)
    (lowered : lowerWithin source taken fuel bottom before = .ok value middle)
    (reached : middle.Live) (work : middle.builder.AtWork) (recalls : middle.memo.Recalls source)
    (scalar : value.ty = .prim found) (solid : found.isVoid = false) :
    ∃ result insts after,
      lowerWithin source taken (fuel + targets.length) top before = .ok result after ∧
      Converted found targets value result insts middle after := by
  induction nested generalizing fuel value middle found with
  | done expr => exact ⟨value, [], middle, lowered, .refl reached scalar⟩
  | @cast operand expr last span ty target targets stored typed rest inductionHypothesis =>
    have integer := integers target List.mem_cons_self
    obtain ⟨result, insts, after, lowered', work', recalls', first⟩ :=
      converted_of_cast stored typed integer live lowered reached work recalls scalar solid
    obtain ⟨last, insts', final, returned, others⟩ := inductionHypothesis
      (fun other member => integers other (List.mem_cons_of_mem _ member)) lowered' first.live work'
      recalls' first.ty (Prim.isVoid_of_integer integer)
    refine ⟨last, insts ++ insts', final, ?_, first.cons integer others⟩
    rwa [List.length_cons, Nat.add_comm targets.length, ← Nat.add_assoc]

/-- An expression that control gets behind is one that control comes to. -/
theorem live_of_lowered (lowered : lowerWithin source taken fuel expr before = .ok value middle)
    (reached : middle.Live) : before.Live := by
  by_contra dead
  cases fuel with
  | zero => cases lowered
  | succ fuel =>
    have left := (lowerNode_dead dead (levels source taken fuel) expr).symm.trans lowered
    cases left
    exact dead reached

/-- Wherever a program has casts to integer types around a scalar, their value is computed from the
scalar by one instruction for each change of the type. The instructions lead from every number of the
first type to what remains of it when it is converted to each type in turn: the number of the type that
differs from the one before by a multiple of what fits into the type. -/
theorem casts_compute
    (made : MadeBy source options ⟨⟨.value, top, before⟩, taken, fuel + targets.length⟩)
    (nested : source.program.Casts bottom targets top)
    (integers : ∀ target ∈ targets, target.isInteger = true)
    (lowered : lowerWithin source taken fuel bottom before = .ok value middle)
    (reached : middle.Live) (scalar : value.ty = .prim found) (solid : found.isVoid = false) :
    (∀ target : Prim, target.isInteger = true → ∀ number result, target.wrap number = result ↔
      target.Represents result ∧ result ≡ number [ZMOD 2 ^ (8 * target.size.toNat)]) ∧
    ∃ result insts after,
      lowerWithin source taken (fuel + targets.length) top before = .ok result after ∧
      Converted found targets value result insts middle after := by
  obtain ⟨decl, func, context, _, madeIn⟩ := madeBy_iff.1 made
  obtain ⟨_, spares⟩ :=
    orderly_levels source taken fuel (ready_of_made madeIn) .value bottom _ _ lowered
  exact ⟨fun _ integer _ _ => Prim.wrap_eq_iff integer,
    converted_of_casts nested integers (live_of_lowered lowered reached) lowered reached spares.work
      (recalls_of_lowered (recalls_of_made made) lowered) scalar solid⟩

end Casts

/-! ### Casts in casts -/

/-- `fn tail() -> usize { '€' as u8 as usize }` -/
def tail : Source where
  names := (NameTable.initial.intern "tail").2
  program :=
    { types := .initial
      scopes := .initial
      arena := ⟨#[⟨.char '€', .nowhere, .char⟩, ⟨.cast ⟨0⟩, .nowhere, .u8⟩,
        ⟨.cast ⟨1⟩, .nowhere, .usize⟩]⟩
      items := [.function
        { name := ⟨1⟩
          link := ⟨1⟩
          params := []
          ret := .usize
          body := some ⟨2⟩
          scope := .root
          span := .nowhere }] }

/-- The character is cut to its last byte, and that byte is filled up with zeros. -/
theorem tail_casts : ∃ before taken fuel result insts after,
    MadeBy tail .standard ⟨⟨.value, ⟨2⟩, before⟩, taken, fuel + 2⟩ ∧
      lowerWithin tail taken fuel ⟨0⟩ before = .ok (.char '€') before ∧ before.Live ∧
      lowerWithin tail taken (fuel + 2) ⟨2⟩ before = .ok result after ∧
      insts.map Instruction.ty = [.u8, .usize] ∧
      before.builder.Appends insts after.builder ∧
      ∀ held, held (.char '€') = some (Prim.char.pattern 8364) →
        ∃ held', convertAll? insts held = some held' ∧
          held' result = some (Prim.usize.pattern 172) := by
  have accepted : ∃ target, lowerProgram tail .standard = .ok target := ⟨_, by cbv⟩
  obtain ⟨target, accepted⟩ := accepted
  obtain ⟨before, taken, fuel, value, after, made, live, returned⟩ :=
    madeBy_of_accepted accepted List.mem_cons_self rfl
  obtain ⟨_, _, returned⟩ := operand_of_cast live rfl returned
  cases fuel with
  | zero => cases returned
  | succ fuel =>
  obtain ⟨_, _, returned⟩ := operand_of_cast live rfl returned
  cases fuel with
  | zero => cases returned
  | succ fuel =>
  have lowered : lowerWithin tail taken (fuel + 1) ⟨0⟩ before = .ok (.char '€') before := by
    have stored : (levels tail taken fuel).program.arena.get? ⟨0⟩ =
        some ⟨.char '€', .nowhere, .char⟩ := rfl
    rw [lowerWithin]
    unfold lowerNode
    exact run_opened live stored
  have nested : tail.program.Casts ⟨0⟩ [.u8, .usize] ⟨2⟩ :=
    .cast rfl rfl (.cast rfl rfl (.done _))
  obtain ⟨_, result, insts, last, whole, converted⟩ :=
    casts_compute made nested (by decide) lowered live rfl rfl
  refine ⟨before, taken, fuel + 1, result, insts, last, made, lowered, live, whole,
    converted.types, converted.appends, fun held holds => ?_⟩
  exact converted.computes held 8364 (by decide) holds

end TreeLowering.Lowering
