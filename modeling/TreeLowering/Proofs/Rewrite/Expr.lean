/-
This file lowers one function in two programs whose expressions differ in the order of initialisers only.
Both runs do the same from any state: one level mirrors the other when the parts do, and neither run
reaches its bound on the depth, as nothing contains itself.
-/

import TreeLowering.Proofs.Calls.Mirror
import TreeLowering.Proofs.Slots.Taken

namespace TreeLowering.Lowering

open TreeLowering.Ir TreeLowering.Tree Relation

/-- An action that is mirrored whatever the alarm is, is the same action. -/
theorem Mirrors.eq {α : Type} {action mirror : LowerM α}
    (mirrors : ∀ alarm, Mirrors alarm action mirror) : mirror = action := by
  funext context
  rcases mirrors .malformedTree context with same | ⟨after, raised⟩
  · exact same
  · rcases mirrors .noInsertionPoint context with same | ⟨after', raised'⟩
    · exact same
    · rw [raised] at raised'
      cases raised'

/-- Below an expression, two programs with the same tables are the same up to the order of
initialisers. -/
structure Source.SameBelow (source source' : Source) (expr : ExprId) : Prop where
  tables : source.SameTables source'
  complete : source.Complete expr
  reorders : source.program.Reorders source'.program expr

namespace Source.SameBelow

variable {source source' : Source} {expr : ExprId} {taken taken' : List Name}
  (same : source.SameBelow source' expr)

include same

theorem part {part : ExprId} (contains : source.program.arena.Contains expr part) :
    source.SameBelow source' part :=
  ⟨same.tables, same.complete.part contains, same.reorders.types,
    fun other below => same.reorders.stored other (.head contains below), same.reorders.acyclic,
    same.reorders.acyclic'⟩

variable (alike : ∀ name, taken'.contains name = taken.contains name)

include alike

/-- An expression is met at most twice on the way down, once for its value and once for its place;
the second time is the way that does not come back to it. -/
theorem within (alarm : Error) (fuel fuel' : Nat) {node : Node}
    (found : source.program.arena.get? expr = some node) :
    (2 * source.exprRank expr ≤ fuel → 2 * source'.exprRank expr ≤ fuel' → Mirrored alarm
      ⟨source, taken, lowerWithin source taken fuel, placeWithin source taken fuel⟩
      ⟨source', taken', lowerWithin source' taken' fuel', placeWithin source' taken' fuel'⟩ expr) ∧
    (2 * source.exprRank expr ≤ fuel + 1 → 2 * source'.exprRank expr ≤ fuel' + 1 →
      (node.kind.isPlace = true → Mirrors alarm (placeWithin source taken fuel expr)
        (placeWithin source' taken' fuel' expr)) ∧
      (node.kind.isPlace = false → Mirrors alarm (lowerWithin source taken fuel expr)
        (lowerWithin source' taken' fuel' expr))) := by
  have positive : 0 < source.exprRank expr := rank_pos (inside_of_get? found)
  obtain ⟨node', found', _, children⟩ := same.reorders.found .refl found
  have positive' : 0 < source'.exprRank expr := rank_pos (inside_of_get? found')
  induction fuel generalizing fuel' expr node node' with
  | zero => exact ⟨fun enough => by omega, fun enough => by omega⟩
  | succ fuel inductionHypothesis =>
    cases fuel' with
    | zero => exact ⟨fun _ enough => by omega, fun _ enough => by omega⟩
    | succ fuel' =>
    have stored := same.reorders.stored expr .refl
    have parts : 2 * source.exprRank expr ≤ fuel + 2 → 2 * source'.exprRank expr ≤ fuel' + 2 →
        ∀ other, source.program.arena.get? expr = some other → ∀ part ∈ other.kind.children,
          Mirrored alarm
            ⟨source, taken, lowerWithin source taken fuel, placeWithin source taken fuel⟩
            ⟨source', taken', lowerWithin source' taken' fuel', placeWithin source' taken' fuel'⟩
            part := by
      intro enough enough' other stored part member
      cases found.symm.trans stored
      have contains : source.program.arena.Contains expr part := ⟨node, found, member⟩
      have less : source.exprRank part < source.exprRank expr :=
        rank_lt (same.reorders.acyclic _) (inside_of_get? found) contains
      have less' : source'.exprRank part < source'.exprRank expr :=
        rank_lt (same.reorders.acyclic' _) (inside_of_get? found')
          ⟨node', found', (children part).2 member⟩
      have below := same.part contains
      obtain ⟨inner, here⟩ := Option.isSome_iff_exists.1 (below.complete part .refl)
      obtain ⟨inner', here', _, children'⟩ := below.reorders.found .refl here
      exact (inductionHypothesis below fuel' here (rank_pos (inside_of_get? here)) inner' here' ‹_›
        children' (rank_pos (inside_of_get? here'))).1 (by omega) (by omega)
    have valued : 2 * source.exprRank expr ≤ fuel + 2 → 2 * source'.exprRank expr ≤ fuel' + 2 →
        (node.kind.isPlace = true → Mirrors alarm (placeWithin source taken fuel expr)
          (placeWithin source' taken' fuel' expr)) →
        Mirrors alarm (lowerWithin source taken (fuel + 1) expr)
          (lowerWithin source' taken' (fuel' + 1) expr) := fun enough enough' home =>
      mirrors_node same.tables alike stored (parts enough enough') fun other stored' isPlace => by
        cases found.symm.trans stored'
        exact home isPlace
    have placed : 2 * source.exprRank expr ≤ fuel + 2 → 2 * source'.exprRank expr ≤ fuel' + 2 →
        (node.kind.isPlace = false → Mirrors alarm (lowerWithin source taken fuel expr)
          (lowerWithin source' taken' fuel' expr)) →
        Mirrors alarm (placeWithin source taken (fuel + 1) expr)
          (placeWithin source' taken' (fuel' + 1) expr) := fun enough enough' home =>
      mirrors_nodePlace same.tables stored (parts enough enough') fun other stored' plain => by
        cases found.symm.trans stored'
        exact home plain
    refine ⟨fun enough enough' => ?_, fun enough enough' => ⟨fun isPlace => ?_, fun plain => ?_⟩⟩
    · obtain ⟨places, values⟩ := (inductionHypothesis same fuel' found positive node' found' ‹_›
        children positive').2 enough enough'
      exact ⟨stored, valued (by omega) (by omega) places, placed (by omega) (by omega) values⟩
    · exact placed enough enough' fun plain => by cases isPlace.symm.trans plain
    · exact valued enough enough' fun isPlace => by cases isPlace.symm.trans plain

/-- From any state, both programs lower the expression alike, as long as both runs may go as deep as
their programs are large. -/
theorem lowerWithin {fuel fuel' : Nat} (enough : 2 * source.program.arena.size ≤ fuel)
    (enough' : 2 * source'.program.arena.size ≤ fuel') :
    lowerWithin source' taken' fuel' expr = Lowering.lowerWithin source taken fuel expr := by
  obtain ⟨node, found⟩ := Option.isSome_iff_exists.1 (same.complete expr .refl)
  have most : source.exprRank expr ≤ source.program.arena.size := rank_le expr
  have most' : source'.exprRank expr ≤ source'.program.arena.size := rank_le expr
  exact Mirrors.eq fun alarm =>
    ((same.within alike alarm fuel fuel' found).1 (by omega) (by omega)).expr

theorem lowerExpr : lowerExpr source' taken' expr = Lowering.lowerExpr source taken expr :=
  same.lowerWithin alike (by unfold Source.exprDepth; omega) (by unfold Source.exprDepth; omega)

omit alike in
/-- The names whose address is needed are found in another order, but they are the same names. -/
theorem contains_addressTaken (name : Name) :
    (source'.program.addressTaken expr).contains name =
      (source.program.addressTaken expr).contains name := by
  rw [Bool.eq_iff_iff, List.contains_iff_mem, List.contains_iff_mem]
  exact same.reorders.mem_addressTaken

end Source.SameBelow

/-! ### Functions -/

section Functions

variable {source source' : Source} (tables : source.SameTables source')

include tables

theorem Source.SameTables.bindParams {taken taken' : List Name}
    (alike : ∀ name, taken'.contains name = taken.contains name) (func : FuncId) (position : Nat)
    (params : List Tree.Param) :
    bindParams source' taken' func position params =
      Lowering.bindParams source taken func position params := by
  induction params generalizing position with
  | nil => rfl
  | cons param rest inductionHypothesis =>
    simp only [Lowering.bindParams, bindParam, tables.names, alike, inductionHypothesis]

/-- A function with one body is lowered alike in both programs. -/
theorem Source.SameTables.lowerFunction {decl : FunctionDecl}
    (bodies : ∀ body ∈ decl.body, source.SameBelow source' body) (func : FuncId) :
    lowerFunction source' decl func = Lowering.lowerFunction source decl func := by
  unfold Lowering.lowerFunction
  cases given : decl.body with
  | none => rfl
  | some body =>
    have same := bodies body given
    simp only [tables.bindParams same.contains_addressTaken,
      same.lowerExpr same.contains_addressTaken]

end Functions

end TreeLowering.Lowering
