/-
This file says which places a program writes to. Where control gets behind the target of an assignment
or of a mutable borrow, the reference that was crossed last on the way there is a mutable one, or none
was crossed and the place belongs to a mutable variable; else the program is rejected. References that
were crossed earlier are not looked at, so a mutable reference that lies behind a shared one is
written through.
-/

import TreeLowering.Proofs.Calls.Obey
import TreeLowering.Proofs.Calls.Unfold
import TreeLowering.Proofs.Pair.Expr

namespace TreeLowering.Ir

/-- What lies behind a pointer and `more` pointers that follow it, and whether the last of them may
write. -/
def Ty.behind? : (more : Nat) → Ty → Option (Ty × Bool)
  | 0, ty => ty.pointee?
  | more + 1, ty => ty.pointee?.bind fun (inner, _) => inner.behind? more

end TreeLowering.Ir

namespace TreeLowering.Tree

/-- What is assigned to, or borrowed so that others can write. -/
def ExprKind.written? : ExprKind → Option ExprId
  | assign target _ => some target
  | compound _ target _ => some target
  | borrow true operand => some operand
  | _ => none

end TreeLowering.Tree

namespace TreeLowering.Lowering

open TreeLowering.Ir TreeLowering.Tree

/-- The way to a place, as it is lowered from a given state: its last reference may write, or it
crosses none and starts from a mutable variable. -/
inductive Writable (source : Source) (taken : List Name) : (fuel : Nat) → ExprId → Context → Prop
  | variable {fuel : Nat} {expr : ExprId} {before : Context} {name : Name} {span : Span}
      {ty : TypeId} {address : Value} {home : Ty}
      (stored : source.program.arena.get? expr = some ⟨.path [name], span, ty⟩)
      (bound : before.env.resolve? name = some (.slot address home true)) :
      Writable source taken fuel expr before
  | deref {fuel : Nat} {expr operand : ExprId} {before middle : Context} {span : Span}
      {ty : TypeId} {pointer : Value} {home : Ty}
      (stored : source.program.arena.get? expr = some ⟨.deref operand, span, ty⟩)
      (computes : lowerWithin source taken fuel operand before = .ok pointer middle)
      (live : middle.Live) (writes : pointer.ty.pointee? = some (home, true)) :
      Writable source taken (fuel + 1) expr before
  | part {fuel : Nat} {expr base : ExprId} {before : Context} {node inner : Node}
      (stored : source.program.arena.get? expr = some node) (shape : node.kind.base? = some base)
      (typed : source.program.arena.get? base = some inner)
      (direct : (source.program.types.peelReferences inner.ty).2 = 0)
      (own : Writable source taken fuel base before) : Writable source taken (fuel + 1) expr before
  | behind {fuel more : Nat} {expr base : ExprId} {before middle : Context} {node inner : Node}
      {pointer : Value} {home : Ty} (stored : source.program.arena.get? expr = some node)
      (shape : node.kind.base? = some base) (typed : source.program.arena.get? base = some inner)
      (references : (source.program.types.peelReferences inner.ty).2 = more + 1)
      (computes : lowerWithin source taken fuel base before = .ok pointer middle)
      (live : middle.Live) (writes : pointer.ty.behind? more = some (home, true)) :
      Writable source taken (fuel + 1) expr before

section Places

variable {walk : Walk} {source : Source} {taken : List Name} {fuel : Nat} {expr base : ExprId}
  {before middle after : Context} {place : Place} {value : Value} {span : Span} {node : Node}

/-! ### References -/

theorem derefPlace_ok (returned : derefPlace value span before = .ok place after) :
    after = before ∧ value.ty.pointee? = some (place.ty, place.mutable) := by
  unfold derefPlace at returned
  cases points : value.ty.pointee? with
  | none =>
    rw [points] at returned
    cases returned
  | some pair =>
    rw [points] at returned
    cases returned
    exact ⟨rfl, rfl⟩

/-- A value that is loaded has the type of its place. -/
theorem ty_of_loadPlace (returned : loadPlace place before = .ok value after) :
    value.ty = place.ty := by
  have loaded := builder_of_build returned
  obtain ⟨name, _, _, loaded⟩ := run_bind_ok loaded
  obtain ⟨cursor, _, _, loaded⟩ := run_bind_ok loaded
  obtain ⟨_, _, _, loaded⟩ := run_bind_ok loaded
  obtain ⟨_, _, _, loaded⟩ := run_bind_ok loaded
  cases loaded
  rfl

/-- Following references ends with what the last of them says. -/
theorem behind_of_followReferences {count : Nat} {last : Place}
    (points : value.ty.pointee? = some (place.ty, place.mutable))
    (returned : followReferences span count place before = .ok last after) :
    value.ty.behind? count = some (last.ty, last.mutable) := by
  induction count generalizing place value before with
  | zero =>
    cases returned
    exact points
  | succ count inductionHypothesis =>
    obtain ⟨pointer, loaded, loads, returned⟩ := run_bind_ok returned
    obtain ⟨next, _, derefs, returned⟩ := run_bind_ok returned
    have further := inductionHypothesis (derefPlace_ok derefs).2 returned
    rw [Ty.behind?, points, Option.bind_some]
    rwa [ty_of_loadPlace loads] at further

/-- The place of a base is its own, or lies behind the references of its value. -/
theorem basePlace_ok {references : Nat}
    (returned : basePlace walk base references span before = .ok place after) (live : after.Live) :
    references = 0 ∧ walk.place base before = .ok place after ∨
      ∃ more pointer middle, references = more + 1 ∧ walk.expr base before = .ok pointer middle ∧
        middle.Live ∧ pointer.ty.behind? more = some (place.ty, place.mutable) := by
  cases references with
  | zero => exact .inl ⟨rfl, returned⟩
  | succ more =>
    obtain ⟨pointer, middle, computes, reached, returned⟩ := thenLive_live returned live
    obtain ⟨first, _, derefs, returned⟩ := run_bind_ok returned
    exact .inr ⟨more, pointer, middle, rfl, computes, reached,
      behind_of_followReferences (derefPlace_ok derefs).2 returned⟩

/-! ### Places -/

theorem immutable_of_spill {variableName : Option String}
    (returned : spill value variableName before = .ok place after) : place.mutable = false := by
  obtain ⟨address, _, _, returned⟩ := run_bind_ok returned
  obtain ⟨_, _, _, returned⟩ := run_bind_ok returned
  cases returned
  rfl

theorem immutable_of_globalPlace {name : Name}
    (returned : globalPlace source name span before = .ok place after) : place.mutable = false := by
  obtain ⟨symbol, _, _, returned⟩ := run_bind_ok returned
  cases symbol with
  | none => cases returned
  | some symbol =>
    cases symbol with
    | const link ty =>
      obtain ⟨mapped, _, _, returned⟩ := run_bind_ok returned
      obtain ⟨context, _, _, returned⟩ := run_bind_ok returned
      cases known : context.builder.target.global? (source.names.text link) with
      | none =>
        rw [known] at returned
        cases returned
      | some global =>
        rw [known] at returned
        cases returned
        rfl
    | _ => cases returned

/-- The place of a path may be written to when the path is a mutable variable. -/
theorem slot_of_pathPlace {segments : List Name}
    (returned : pathPlace walk segments span before = .ok place after)
    (mutable : place.mutable = true) :
    ∃ name address home, segments = [name] ∧
      before.env.resolve? name = some (.slot address home true) := by
  unfold pathPlace at returned
  obtain ⟨name, first, single, rest⟩ := run_bind_ok returned
  have alone : segments = [name] ∧ first = before := by
    unfold Walk.singleName at single
    split at single
    · cases single
      exact ⟨rfl, rfl⟩
    · cases single
    · cases single
  obtain ⟨rfl, rfl⟩ := alone
  have asked : localBinding? name first = .ok (first.env.resolve? name) first := rfl
  rw [run_bind asked] at rest
  cases bound : first.env.resolve? name with
  | none =>
    rw [bound] at rest
    rw [immutable_of_globalPlace rest] at mutable
    cases mutable
  | some binding =>
    rw [bound] at rest
    cases binding with
    | slot address home writes =>
      cases rest
      cases mutable
      exact ⟨name, address, home, rfl, bound⟩
    | value value =>
      rw [immutable_of_spill rest] at mutable
      cases mutable
    | param value =>
      rw [immutable_of_spill rest] at mutable
      cases mutable

theorem node_ok (returned : walk.node expr before = .ok node after) :
    after = before ∧ walk.program.arena.get? expr = some node := by
  unfold Walk.node at returned
  cases stored : walk.program.arena.get? expr with
  | none =>
    rw [stored] at returned
    cases returned
  | some node =>
    rw [stored] at returned
    cases returned
    exact ⟨rfl, rfl⟩

theorem typeOf_ok {ty : TypeId} (returned : walk.typeOf base before = .ok ty after) :
    after = before ∧ ∃ inner, walk.program.arena.get? base = some inner ∧ inner.ty = ty := by
  obtain ⟨inner, first, found, rest⟩ := run_bind_ok returned
  obtain ⟨rfl, stored⟩ := node_ok found
  cases rest
  exact ⟨rfl, inner, stored, rfl⟩

/-- The place of a field or an element is found from the place of its base: it is as mutable, and one
instruction computes its address, after the type of the field or the index. -/
def FoundFrom (walk : Walk) (base : ExprId) (before : Context) (place : Place)
    (after : Context) : Prop :=
  ∃ inner span whole middle, walk.program.arena.get? base = some inner ∧
    basePlace walk base (walk.program.types.peelReferences inner.ty).2 span before =
      .ok whole middle ∧ middle.Live ∧ whole.mutable = place.mutable ∧
    ∃ indices last,
      ((∃ ty mapped, lowerType walk.toSource ty middle = .ok mapped last) ∨
        ∃ position index, walk.expr position middle = .ok index last) ∧
      build (Build.gep whole.ty whole.address indices place.ty) last = .ok place.address after

theorem foundFrom_of_fieldPlace {field : Name}
    (returned : fieldPlace walk base field span before = .ok place after) (live : after.Live) :
    FoundFrom walk base before place after := by
  unfold fieldPlace at returned
  obtain ⟨ty, first, typed, returned⟩ := run_bind_ok returned
  obtain ⟨rfl, inner, stored, rfl⟩ := typeOf_ok typed
  generalize peeled : walk.program.types.peelReferences inner.ty = pair at returned
  obtain ⟨structTy, references⟩ := pair
  obtain ⟨whole, middle, found, reached, returned⟩ := thenLive_live returned live
  cases known : walk.program.types.structDef? structTy with
  | none =>
    rw [known] at returned
    cases returned
  | some definition =>
    rw [known] at returned
    dsimp only at returned
    cases declared : definition.field? field with
    | none =>
      rw [declared] at returned
      cases returned
    | some pair =>
      rw [declared] at returned
      obtain ⟨fieldTy, last, mapped, returned⟩ := run_bind_ok returned
      obtain ⟨address, _, computed, returned⟩ := run_bind_ok returned
      cases returned
      exact ⟨inner, span, whole, middle, stored, peeled ▸ found, reached, rfl, _, last,
        .inl ⟨_, _, mapped⟩, computed⟩

theorem foundFrom_of_elementPlace {position : ExprId}
    (returned : elementPlace walk base position span before = .ok place after) (live : after.Live) :
    FoundFrom walk base before place after := by
  unfold elementPlace at returned
  obtain ⟨ty, first, typed, returned⟩ := run_bind_ok returned
  obtain ⟨rfl, inner, stored, rfl⟩ := typeOf_ok typed
  generalize peeled : walk.program.types.peelReferences inner.ty = pair at returned
  obtain ⟨_, references⟩ := pair
  obtain ⟨whole, middle, found, reached, returned⟩ := thenLive_live returned live
  obtain ⟨address, home, mutable⟩ := whole
  cases home with
  | array elemTy len =>
    obtain ⟨index, last, indexed, _, returned⟩ := thenLive_live returned live
    obtain ⟨element, _, computed, returned⟩ := run_bind_ok returned
    cases returned
    have found : basePlace walk base (walk.program.types.peelReferences inner.ty).2 span first =
        .ok ⟨address, .array elemTy len, mutable⟩ middle := by rw [peeled, found]
    exact ⟨inner, span, _, middle, stored, found, reached, rfl, _, last,
      .inr ⟨position, index, indexed⟩, computed⟩
  | _ => cases returned

theorem foundFrom_of_place (stored : walk.program.arena.get? expr = some node)
    (shape : node.kind.base? = some base) (live : before.Live)
    (returned : lowerNodePlace walk expr before = .ok place after) (reached : after.Live) :
    FoundFrom walk base before place after := by
  unfold lowerNodePlace at returned
  replace returned := (run_opened live stored).symm.trans returned
  obtain ⟨kind, span, ty⟩ := node
  cases kind with
  | field base' field =>
    cases shape
    exact foundFrom_of_fieldPlace returned reached
  | index base' position =>
    cases shape
    exact foundFrom_of_elementPlace returned reached
  | _ => cases shape

/-! ### Any way -/

/-- A place that may be written to is reached by a way that may write. -/
theorem writable_of_place (returned : placeWithin source taken fuel expr before = .ok place after)
    (live : before.Live) (reached : after.Live) (mutable : place.mutable = true) :
    Writable source taken fuel expr before := by
  induction fuel generalizing expr before place after with
  | zero => cases returned
  | succ fuel inductionHypothesis =>
    rw [placeWithin] at returned
    have lowered := returned
    have alive := isLive_of_live live
    unfold lowerNodePlace at returned
    rw [run_bind alive] at returned
    obtain ⟨node, first, found, returned⟩ := run_bind_ok returned
    obtain ⟨rfl, stored⟩ := node_ok found
    -- a value without a home of its own is put into an immutable slot
    have homeless : ∀ {value : Value} {spilled middle : Context},
        spill value none middle = .ok place spilled → False := fun spilled => by
      rw [immutable_of_spill spilled] at mutable
      cases mutable
    have own : ∀ {base : ExprId}, node.kind.base? = some base →
        Writable source taken (fuel + 1) expr first := by
      intro base shape
      obtain ⟨inner, span, whole, middle, typed, found, reached, same, _⟩ :=
        foundFrom_of_place stored shape live lowered reached
      rcases basePlace_ok found reached with ⟨direct, found⟩ |
        ⟨more, pointer, middle', references, computes, reached', writes⟩
      · exact .part stored shape typed direct
          (inductionHypothesis found live reached (same.trans mutable))
      · rw [same, mutable] at writes
        exact .behind stored shape typed references computes reached' writes
    obtain ⟨kind, span, ty⟩ := node
    cases kind with
    | path segments =>
      obtain ⟨name, address, home, rfl, bound⟩ := slot_of_pathPlace returned mutable
      exact .variable stored bound
    | deref operand =>
      obtain ⟨pointer, middle, computes, reached', returned⟩ := thenLive_live returned reached
      have points := (derefPlace_ok returned).2
      rw [mutable] at points
      exact .deref stored computes reached' points
    | field | index => exact own rfl
    | assign | compound | whileLoop | loop | breakLoop | continueLoop | returnWith => cases returned
    | _ =>
      obtain ⟨value, middle, _, _, spilled⟩ := thenLive_live returned reached
      exact (homeless spilled).elim

/-! ### Writes -/

section Refused

variable {target : ExprId} (found : walk.place target before = .ok place middle)
  (reached : middle.Live) (immutable : place.mutable = false)

include found reached immutable

theorem withTarget_immutable (span : Span) (next : Place → LowerM Value) :
    withTarget walk target span next before = .error (.immutablePlace span) middle := by
  unfold withTarget
  rw [run_thenLive found reached, immutable]
  rfl

theorem lowerBorrow_immutable (span : Span) :
    lowerBorrow walk true target span before = .error (.immutablePlace span) middle := by
  unfold lowerBorrow
  rw [run_thenLive found reached, immutable]
  rfl

/-- What is written to must be mutable, as soon as control gets behind it. -/
theorem lowerNode_immutable (live : before.Live)
    (stored : walk.program.arena.get? expr = some node)
    (writes : node.kind.written? = some target) :
    lowerNode walk expr before = .error (.immutablePlace node.span) middle := by
  obtain ⟨kind, span, ty⟩ := node
  unfold lowerNode
  refine (run_opened live stored).trans ?_
  cases kind with
  | assign target' value =>
    cases writes
    exact withTarget_immutable found reached immutable span _
  | compound op target' value =>
    cases writes
    exact withTarget_immutable found reached immutable span _
  | borrow mutable operand =>
    cases mutable with
    | false => cases writes
    | true =>
      cases writes
      exact lowerBorrow_immutable found reached immutable span
  | _ => cases writes

end Refused

end Places

section Programs

variable {source : Source} {options : Options} {taken : List Name} {fuel : Nat}
  {expr target : ExprId} {before middle : Context} {node : Node} {place : Place}

/-- Wherever control gets behind what is assigned to or borrowed for writing, it was reached by a way
that may write, or the program is rejected for that place. -/
theorem lowerProgram_writable
    (made : MadeBy source options ⟨⟨.value, expr, before⟩, taken, fuel + 1⟩) (live : before.Live)
    (stored : source.program.arena.get? expr = some node) (writes : node.kind.written? = some target)
    (found : placeWithin source taken fuel target before = .ok place middle)
    (reached : middle.Live) :
    Writable source taken fuel target before ∨
      lowerProgram source options = .error (.immutablePlace node.span) := by
  cases mutable : place.mutable with
  | true => exact .inl (writable_of_place found live reached mutable)
  | false =>
    have failed : Call.outcome ⟨⟨.value, expr, before⟩, taken, fuel + 1⟩ source =
        .error (.immutablePlace node.span) middle := by
      rw [Call.outcome, outcome_value, lowerWithin]
      exact lowerNode_immutable found reached mutable live stored writes
    exact .inr (lowerProgram_of_failed made failed)

end Programs

/-- `fn poke(cell: & &mut i32) { **cell = 1 }` -/
def poking : Source where
  names := ((NameTable.initial.intern "poke").2.intern "cell").2
  program :=
    { types := ((TypePool.initial.intern (.reference .i32 true)).2.intern
        (.reference ⟨11⟩ false)).2
      scopes := .initial
      arena := ⟨#[⟨.path [⟨2⟩], .nowhere, ⟨12⟩⟩, ⟨.deref ⟨0⟩, .nowhere, ⟨11⟩⟩,
        ⟨.deref ⟨1⟩, .nowhere, .i32⟩, ⟨.int 1, .nowhere, .i32⟩,
        ⟨.assign ⟨2⟩ ⟨3⟩, .nowhere, .unit⟩]⟩
      items := [.function
        { name := ⟨1⟩
          link := ⟨1⟩
          params := [⟨⟨2⟩, ⟨12⟩, false, .nowhere⟩]
          ret := .unit
          body := some ⟨4⟩
          scope := .root
          span := .nowhere }] }

theorem poking_wellFormed : poking.WellFormed :=
  .of_ordered (.intern (.intern .initial (by simp)) (by simp)) (by decide +kernel) (by decide)
    (.intern (.intern .initial _) _) (by decide +kernel) (by decide) (by decide +kernel)

/-- Control gets behind the assignment, so it gets behind the target. -/
theorem poking_found : ∃ before taken fuel place middle,
    MadeBy poking .standard ⟨⟨.value, ⟨4⟩, before⟩, taken, fuel + 1⟩ ∧ before.Live ∧
      placeWithin poking taken fuel ⟨2⟩ before = .ok place middle ∧ middle.Live := by
  have accepted : ∃ target, lowerProgram poking .standard = .ok target := ⟨_, by cbv⟩
  obtain ⟨target, accepted⟩ := accepted
  obtain ⟨before, taken, fuel, value, after, made, live, returned⟩ :=
    madeBy_of_accepted accepted List.mem_cons_self rfl
  have calls : EveryCall poking .standard fun expr _ _ after =>
      expr = ⟨4⟩ → after.builder.cursor.isSome = true := by
    intro alarm
    cbv
  have passed : after.Live := obeys_of_made calls made returned rfl
  rw [lowerWithin] at returned
  unfold lowerNode at returned
  replace returned := (run_opened live rfl).symm.trans returned
  obtain ⟨place, middle, found, reached, _⟩ := thenLive_live returned passed
  exact ⟨before, taken, fuel, place, middle, made, live, found, reached⟩

/-- The assignment goes through a mutable reference last. -/
theorem poking_writable : ∃ before taken fuel,
    MadeBy poking .standard ⟨⟨.value, ⟨4⟩, before⟩, taken, fuel + 1⟩ ∧ before.Live ∧
      Writable poking taken fuel ⟨2⟩ before := by
  obtain ⟨before, taken, fuel, place, middle, made, live, found, reached⟩ := poking_found
  refine ⟨before, taken, fuel, made, live, ?_⟩
  refine (lowerProgram_writable made live rfl rfl found reached).resolve_right fun rejected => ?_
  have accepted : ∃ target, lowerProgram poking .standard = .ok target := ⟨_, by cbv⟩
  obtain ⟨target, accepted⟩ := accepted
  cases rejected.symm.trans accepted

/-- The assignment crosses a shared reference first, and still the program is accepted. -/
theorem poking_crosses : poking.WellFormed ∧
    (∃ target, lowerProgram poking .standard = .ok target) ∧
    poking.program.types.kind ⟨12⟩ = .reference ⟨11⟩ false ∧
    poking.program.arena.get? ⟨0⟩ = some ⟨.path [⟨2⟩], .nowhere, ⟨12⟩⟩ ∧
    poking.program.arena.get? ⟨1⟩ = some ⟨.deref ⟨0⟩, .nowhere, ⟨11⟩⟩ ∧
    poking.program.arena.get? ⟨2⟩ = some ⟨.deref ⟨1⟩, .nowhere, .i32⟩ ∧
    poking.program.arena.get? ⟨4⟩ = some ⟨.assign ⟨2⟩ ⟨3⟩, .nowhere, .unit⟩ ∧
    ∃ before taken fuel, MadeBy poking .standard ⟨⟨.value, ⟨4⟩, before⟩, taken, fuel + 1⟩ ∧
      before.Live := by
  obtain ⟨before, taken, fuel, _, _, made, live, _⟩ := poking_found
  exact ⟨poking_wellFormed, ⟨_, by cbv⟩, by decide +kernel, rfl, rfl, rfl, rfl, before, taken, fuel,
    made, live⟩

end TreeLowering.Lowering
