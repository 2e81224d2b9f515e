/-
This file proves that the order in which a struct literal lists its initialisers does not matter. Each
field finds its own initialiser by name, so the values are computed and stored in the declared order
of the fields in any case, and the program is lowered to the same module or fails with the same error.
-/

import TreeLowering.Proofs.Calls.Unfold
import TreeLowering.Proofs.Rewrite.Program

namespace TreeLowering.Tree

open Relation

/-- Programs that are the same everywhere, up to the order of initialisers, have no expression that
contains itself when one of them has none. -/
theorem Program.Reorders.of_all {program program' : Program} (types : program'.types = program.types)
    (stored : ∀ expr, Reordered program.types (program.arena.get? expr) (program'.arena.get? expr))
    (acyclic : ∀ expr, ¬ TransGen program.arena.Contains expr expr) (body : ExprId) :
    program.Reorders program' body := by
  have contains : ∀ whole part, program'.arena.Contains whole part →
      program.arena.Contains whole part := by
    rintro whole part ⟨node', found', member⟩
    have reordered := stored whole
    cases found : program.arena.get? whole with
    | none =>
      rw [found, found'] at reordered
      cases reordered
    | some node => exact ⟨node, found, (reordered.children found found').1 member⟩
  exact ⟨types, fun expr _ => stored expr, acyclic,
    fun expr cycle => acyclic expr (TransGen.mono contains expr expr cycle)⟩

end TreeLowering.Tree

namespace TreeLowering.Lowering

open TreeLowering.Ir TreeLowering.Tree Relation

/-- The program with another expression in one place. -/
def Source.withNode (source : Source) (expr : ExprId) (node : Node) : Source :=
  source.swap ⟨source.program.arena.nodes.setIfInBounds expr.index node⟩ source.program.items

section Literals

variable {source : Source} {expr : ExprId} {inits inits' : List FieldInit} {span : Span}
  {ty : TypeId}

/-- A literal with its initialisers in another order is all that changes. -/
theorem stored_withNode
    (found : source.program.arena.get? expr = some ⟨.structLit inits, span, ty⟩)
    (named : FieldInits source.program.types ty inits) (perm : inits'.Perm inits)
    (other : ExprId) :
    Reordered source.program.types (source.program.arena.get? other)
      ((source.withNode expr ⟨.structLit inits', span, ty⟩).program.arena.get? other) := by
  show Reordered _ _ (source.program.arena.nodes.setIfInBounds expr.index _)[other.index]?
  by_cases here : expr = other
  · subst here
    rw [Array.getElem?_setIfInBounds_self_of_lt (Array.getElem?_eq_some_iff.1 found).1, found]
    exact .structLit named perm
  · rw [Array.getElem?_setIfInBounds_ne fun same => here (congrArg ExprId.mk same)]
    exact .same _

/-! ### The order of the code -/

/-- The fields from `position` on are filled one after the other. Each initialiser is computed in the
state that the field before it has left behind, and is stored before the next one is computed. -/
inductive Filling (walk : Walk) (structTy : Ty) (slot : Value) (inits : List FieldInit) :
    (position : Nat) → List (Name × TypeId) → Context → Context → Prop
  | done {position : Nat} {context : Context} :
      Filling walk structTy slot inits position [] context context
  | field {position : Nat} {init : FieldInit} {fieldTy : TypeId} {rest : List (Name × TypeId)}
      {value : Value} {before computed stored after : Context} (own : init ∈ inits)
      (computes : walk.expr init.value before = .ok value computed) (live : computed.Live)
      (stores : (do
        let fieldTy ← lowerType walk.toSource fieldTy
        storeElement structTy slot (fieldIndices position) fieldTy value) computed =
          .ok () stored)
      (others : Filling walk structTy slot inits (position + 1) rest stored after) :
      Filling walk structTy slot inits position ((init.name, fieldTy) :: rest) before after

theorem filling_of_lowerFields {walk : Walk} {structTy : Ty} {slot value : Value} {position : Nat}
    {fields : List (Name × TypeId)} {before after : Context}
    (returned : lowerFields walk structTy slot inits span position fields before = .ok value after)
    (live : after.Live) :
    ∃ last, Filling walk structTy slot inits position fields before last ∧
      build (Build.load slot structTy) last = .ok value after := by
  induction fields generalizing position before with
  | nil => exact ⟨before, .done, returned⟩
  | cons entry rest inductionHypothesis =>
    obtain ⟨field, fieldTy⟩ := entry
    unfold lowerFields at returned
    cases own : inits.find? fun init => init.name == field with
    | none =>
      rw [own] at returned
      cases returned
    | some init =>
      rw [own] at returned
      obtain rfl : init.name = field := by simpa using List.find?_some own
      obtain ⟨given, computed, computes, reached, returned⟩ := thenLive_live returned live
      obtain ⟨mapped, typed, maps, returned⟩ := run_bind_ok returned
      obtain ⟨_, stored, stores, returned⟩ := run_bind_ok returned
      obtain ⟨last, others, loaded⟩ := inductionHypothesis returned
      refine ⟨last, .field (List.mem_of_find?_eq_some own) computes reached ?_ others, loaded⟩
      rw [run_bind maps]
      exact stores

/-- A struct literal that control gets behind has filled its fields in declared order. -/
theorem filling_of_structLit {walk : Walk} {value : Value} {before after : Context}
    {definition : StructDef} (known : walk.program.types.structDef? ty = some definition)
    (returned : lowerStructLit walk inits ty span before = .ok value after) (live : after.Live) :
    ∃ structTy slot first last,
      (do
        let structTy ← lowerType walk.toSource ty
        return (structTy, ← build (Build.alloca structTy none))) before =
          .ok (structTy, slot) first ∧
      Filling walk structTy slot inits 0 definition.fields first last ∧
      build (Build.load slot structTy) last = .ok value after := by
  obtain ⟨structTy, opened, maps, returned⟩ := run_bind_ok returned
  rw [known] at returned
  dsimp only at returned
  cases strays : inits.find? fun init => (definition.fieldIndex? init.name).isNone with
  | some stray =>
    rw [strays] at returned
    cases returned
  | none =>
    rw [strays] at returned
    obtain ⟨slot, first, reserved, returned⟩ := run_bind_ok returned
    obtain ⟨last, filling, loaded⟩ := filling_of_lowerFields returned live
    refine ⟨structTy, slot, first, last, ?_, filling, loaded⟩
    rw [run_bind maps, run_bind reserved]
    rfl

theorem filling_of_lowerWithin {taken : List Name} {fuel : Nat} {value : Value}
    {before after : Context} {definition : StructDef}
    (stored : source.program.arena.get? expr = some ⟨.structLit inits, span, ty⟩)
    (known : source.program.types.structDef? ty = some definition)
    (returned : lowerWithin source taken (fuel + 1) expr before = .ok value after)
    (live : before.Live) (reached : after.Live) :
    ∃ structTy slot first last,
      (do
        let structTy ← lowerType source ty
        return (structTy, ← build (Build.alloca structTy none))) before =
          .ok (structTy, slot) first ∧
      Filling ⟨source, taken, lowerWithin source taken fuel, placeWithin source taken fuel⟩ structTy
        slot inits 0 definition.fields first last ∧
      build (Build.load slot structTy) last = .ok value after := by
  rw [lowerWithin, lowerNode_structLit live stored] at returned
  have filled := filling_of_structLit known returned reached
  exact filled

/-! ### Any order -/

/-- The initialisers of a struct literal may be listed in any order. The program is lowered to the same
module, or fails with the same error; and wherever control gets behind the literal, the code of its
initialisers was emitted in the declared order of the fields. -/
theorem lowerProgram_initOrder (formed : source.WellFormed) {definition : StructDef}
    (found : source.program.arena.get? expr = some ⟨.structLit inits, span, ty⟩)
    (known : source.program.types.structDef? ty = some definition)
    (declared : ∀ init ∈ inits, (definition.fieldIndex? init.name).isSome = true)
    (apart : (inits.map FieldInit.name).Nodup) (perm : inits'.Perm inits) (options : Options)
    {source' : Source} (changed : source' = source.withNode expr ⟨.structLit inits', span, ty⟩) :
    lowerProgram source' options = lowerProgram source options ∧
    ∀ taken fuel before value after,
      lowerWithin source' taken (fuel + 1) expr before = .ok value after → before.Live →
      after.Live → ∃ structTy slot first last,
        (do
          let structTy ← lowerType source' ty
          return (structTy, ← build (Build.alloca structTy none))) before =
            .ok (structTy, slot) first ∧
        Filling ⟨source', taken, lowerWithin source' taken fuel, placeWithin source' taken fuel⟩
          structTy slot inits' 0 definition.fields first last ∧
        build (Build.load slot structTy) last = .ok value after := by
  have named : FieldInits source.program.types ty inits := by
    refine ⟨fun other found => ?_, apart⟩
    cases known.symm.trans found
    exact declared
  have stored := stored_withNode found named perm
  have found' : source'.program.arena.get? expr = some ⟨.structLit inits', span, ty⟩ := by
    rw [changed]
    exact Array.getElem?_setIfInBounds_self_of_lt (Array.getElem?_eq_some_iff.1 found).1
  have tables : source.SameTables source' := by
    rw [changed]
    exact ⟨rfl, rfl, rfl⟩
  have below : ∀ decl ∈ source.program.functions, ∀ body ∈ decl.body,
      source.SameBelow source' body := fun decl listed body given =>
    ⟨tables, formed.found decl listed body given,
      .of_all tables.types (changed ▸ stored) formed.acyclic body⟩
  refine ⟨?_, fun taken fuel before value after returned live reached =>
    filling_of_lowerWithin found' (tables.types ▸ known) returned live reached⟩
  let related (decl decl' : FunctionDecl) : Prop := decl' = decl ∧ decl ∈ source.program.functions
  have pairs : List.Forall₂ (Item.Counterpart related) source.program.items
      source'.program.items := by
    rw [changed]
    exact forall₂_counterpart fun decl listed => ⟨rfl, listed⟩
  refine lowerProgram_eq_of_mirrors (fun alarm => ?_) fun _ => lowerProgramBy_lowerExpr source options
  refine mirrors_counterparts ?_ tables (fun same => by rw [same.1]) pairs
  rintro decl decl' ⟨same, listed⟩ func
  rw [same, lowerFunctionBy_lowerExpr, tables.lowerFunction (below decl listed) func]
  exact .refl _

end Literals

/-- `fn draw() -> i32; fn point() -> Point { Point { y: draw(), x: draw() } }` for a struct `Point`
that declares `x` before `y`. -/
def drawing : Source where
  names := (((((NameTable.initial.intern "Point").2.intern "x").2.intern "y").2.intern "draw").2.intern
    "point").2
  program :=
    { types := ((TypePool.initial.declareStruct ⟨1⟩).2.intern (.function [] .i32)).2.defineFields ⟨11⟩
        [(⟨2⟩, .i32), (⟨3⟩, .i32)]
      scopes := ScopeTree.initial.define .root .value ⟨4⟩ (.function ⟨4⟩ ⟨12⟩)
      arena := ⟨#[⟨.path [⟨4⟩], .nowhere, ⟨12⟩⟩, ⟨.call ⟨0⟩ [], .nowhere, .i32⟩,
        ⟨.path [⟨4⟩], .nowhere, ⟨12⟩⟩, ⟨.call ⟨2⟩ [], .nowhere, .i32⟩,
        ⟨.structLit [⟨⟨3⟩, ⟨1⟩, .nowhere⟩, ⟨⟨2⟩, ⟨3⟩, .nowhere⟩], .nowhere, ⟨11⟩⟩]⟩
      items := [.struct ⟨⟨1⟩, ⟨11⟩, .nowhere⟩, .function
        { name := ⟨4⟩
          link := ⟨4⟩
          params := []
          ret := .i32
          body := none
          scope := .root
          span := .nowhere }, .function
        { name := ⟨5⟩
          link := ⟨5⟩
          params := []
          ret := ⟨11⟩
          body := some ⟨4⟩
          scope := .root
          span := .nowhere }] }

theorem drawing_wellFormed : drawing.WellFormed :=
  .of_ordered (.defineFields (.intern (.declareStruct .initial _) (by simp)) _ _) (by decide +kernel)
    (by decide) (.intern (.intern (.intern (.intern (.intern .initial _) _) _) _) _)
    (by decide +kernel) (by decide) (by decide +kernel)

/-- With `x` written before `y`, the module is the same. -/
theorem drawing_initOrder : ∃ target, lowerProgram drawing .standard = .ok target ∧
    lowerProgram (drawing.withNode ⟨4⟩
      ⟨.structLit [⟨⟨2⟩, ⟨3⟩, .nowhere⟩, ⟨⟨3⟩, ⟨1⟩, .nowhere⟩], .nowhere, ⟨11⟩⟩) .standard =
        .ok target := by
  have accepted : ∃ target, lowerProgram drawing .standard = .ok target := ⟨_, by cbv⟩
  obtain ⟨target, accepted⟩ := accepted
  refine ⟨target, accepted, ?_⟩
  have known : drawing.program.types.structDef? ⟨11⟩ =
      some ⟨⟨1⟩, [(⟨2⟩, .i32), (⟨3⟩, .i32)]⟩ := by decide +kernel
  rw [← accepted]
  exact (lowerProgram_initOrder drawing_wellFormed rfl known (by decide) (by decide)
    (List.Perm.swap _ _ _) .standard rfl).1

end TreeLowering.Lowering
