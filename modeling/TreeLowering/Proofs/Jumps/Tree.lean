/-
This file says what the innermost loop around an expression is, by the shape of a body alone: the
condition of a `while` loop lies outside of it. In a body that is a tree, every expression has at
most one innermost loop, and no expression contains itself.
-/

import TreeLowering.Proofs.Calls.Construct
import TreeLowering.Proofs.Types.Formed

namespace TreeLowering.Tree

open Relation

/-! ### Trees -/

/-- What lies below an expression is a tree: every part belongs to one expression only, in one
place. -/
structure Arena.IsTree (arena : Arena) (root : ExprId) : Prop where
  parent : ∀ {first second part}, ReflTransGen arena.Contains root first →
    ReflTransGen arena.Contains root second → arena.Contains first part →
    arena.Contains second part → first = second
  place : ∀ {expr node}, ReflTransGen arena.Contains root expr → arena.get? expr = some node →
    node.kind.children.Nodup
  top : ∀ {expr}, ReflTransGen arena.Contains root expr → ¬ arena.Contains expr root

/-- Every mention of an expression as a part. -/
def Arena.mentions (arena : Arena) : List ExprId :=
  arena.nodes.toList.flatMap fun node => node.kind.children

namespace Arena

variable {arena : Arena} {root : ExprId}

/-- An arena that mentions no expression twice is made of trees. -/
theorem IsTree.of_mentions (single : arena.mentions.Nodup) (free : root ∉ arena.mentions) :
    arena.IsTree root := by
  have mentioned : ∀ {expr part}, arena.Contains expr part → part ∈ arena.mentions := by
    rintro expr part ⟨node, stored, member⟩
    refine List.mem_flatMap.2 ⟨node, ?_, member⟩
    exact Array.mem_toList_iff.2 (Array.mem_of_getElem? stored)
  obtain ⟨nodup, apart⟩ := List.nodup_flatMap.1 single
  refine ⟨fun {first second part} _ _ contains contains' => ?_, fun _ stored => ?_,
    fun _ contains => free (mentioned contains)⟩
  · have apart : ∀ {early late : ExprId}, early.index < late.index →
        arena.Contains early part → ¬ arena.Contains late part := by
      rintro early late less ⟨node, stored, member⟩ ⟨node', stored', member'⟩
      obtain ⟨inside, rfl⟩ := Array.getElem?_eq_some_iff.1 stored
      obtain ⟨inside', rfl⟩ := Array.getElem?_eq_some_iff.1 stored'
      exact List.pairwise_iff_getElem.1 apart early.index late.index inside inside' less member
        member'
    obtain ⟨index⟩ := first
    obtain ⟨index'⟩ := second
    rcases lt_trichotomy index index' with less | rfl | more
    · exact absurd contains' (apart less contains)
    · rfl
    · exact absurd contains (apart more contains')
  · exact nodup _ (Array.mem_toList_iff.2 (Array.mem_of_getElem? stored))

/-- In a tree no expression contains itself. -/
theorem IsTree.acyclic (tree : arena.IsTree root) {expr : ExprId}
    (below : ReflTransGen arena.Contains root expr) : ¬ TransGen arena.Contains expr expr := by
  induction below with
  | refl =>
    intro cycle
    obtain ⟨last, path, step⟩ := TransGen.tail'_iff.1 cycle
    exact tree.top path step
  | @tail whole part path step inductionHypothesis =>
    intro cycle
    obtain ⟨last, path', step'⟩ := TransGen.tail'_iff.1 cycle
    obtain rfl := tree.parent path ((path.tail step).trans path') step step'
    exact inductionHypothesis (.head' step path')

end Arena

/-! ### The innermost loop -/

/-- Which loop has an expression in its body, with no other loop in between: `none` when no loop
has. -/
inductive Arena.Innermost (arena : Arena) (body : ExprId) : ExprId → Option ExprId → Prop where
  | body : Innermost arena body body none
  | straight {whole part : ExprId} {node : Node} {loop? : Option ExprId}
      (outer : Innermost arena body whole loop?) (stored : arena.get? whole = some node)
      (member : part ∈ node.kind.straight) : Innermost arena body part loop?
  | looped {whole part : ExprId} {node : Node} {loop? : Option ExprId}
      (outer : Innermost arena body whole loop?) (stored : arena.get? whole = some node)
      (looped : node.kind.loopBody? = some part) : Innermost arena body part (some whole)

namespace ExprKind

variable {kind : ExprKind} {part : ExprId}

theorem mem_children_of_straight (member : part ∈ kind.straight) : part ∈ kind.children := by
  cases kind with
  | whileLoop test body => exact List.mem_cons.2 (.inl (List.mem_singleton.1 member))
  | loop body => cases member
  | _ => exact member

theorem mem_children_of_loopBody? (looped : kind.loopBody? = some part) : part ∈ kind.children := by
  cases kind <;> cases looped <;> simp [children]

/-- The body of a loop is not a straight part as well, when nothing is shared. -/
theorem not_straight_of_loopBody? (single : kind.children.Nodup)
    (looped : kind.loopBody? = some part) : part ∉ kind.straight := by
  cases kind <;> cases looped <;> simp_all [straight, children, eq_comm]

end ExprKind

namespace Arena

variable {arena : Arena} {body expr : ExprId} {loop? loop?' : Option ExprId}

theorem Innermost.contained (innermost : arena.Innermost body expr loop?) :
    ReflTransGen arena.Contains body expr := by
  induction innermost with
  | body => exact .refl
  | straight _ stored member inductionHypothesis =>
    exact inductionHypothesis.tail ⟨_, stored, ExprKind.mem_children_of_straight member⟩
  | looped _ stored looped inductionHypothesis =>
    exact inductionHypothesis.tail ⟨_, stored, ExprKind.mem_children_of_loopBody? looped⟩

/-- In a tree every expression has one innermost loop at most. -/
theorem Innermost.unique (tree : arena.IsTree body) (first : arena.Innermost body expr loop?)
    (second : arena.Innermost body expr loop?') : loop? = loop?' := by
  induction first generalizing loop?' with
  | body =>
    cases second with
    | body => rfl
    | straight outer stored member =>
      exact absurd ⟨_, stored, ExprKind.mem_children_of_straight member⟩ (tree.top outer.contained)
    | looped outer stored looped =>
      exact absurd ⟨_, stored, ExprKind.mem_children_of_loopBody? looped⟩ (tree.top outer.contained)
  | straight outer stored member inductionHypothesis =>
    have contains : arena.Contains _ _ := ⟨_, stored, ExprKind.mem_children_of_straight member⟩
    cases second with
    | body => exact absurd contains (tree.top outer.contained)
    | straight outer' stored' member' =>
      obtain rfl := tree.parent outer.contained outer'.contained contains
        ⟨_, stored', ExprKind.mem_children_of_straight member'⟩
      exact inductionHypothesis outer'
    | looped outer' stored' looped =>
      obtain rfl := tree.parent outer.contained outer'.contained contains
        ⟨_, stored', ExprKind.mem_children_of_loopBody? looped⟩
      cases stored.symm.trans stored'
      exact absurd member
        (ExprKind.not_straight_of_loopBody? (tree.place outer.contained stored) looped)
  | looped outer stored looped inductionHypothesis =>
    have contains : arena.Contains _ _ := ⟨_, stored, ExprKind.mem_children_of_loopBody? looped⟩
    cases second with
    | body => exact absurd contains (tree.top outer.contained)
    | straight outer' stored' member =>
      obtain rfl := tree.parent outer.contained outer'.contained contains
        ⟨_, stored', ExprKind.mem_children_of_straight member⟩
      cases stored.symm.trans stored'
      exact absurd member
        (ExprKind.not_straight_of_loopBody? (tree.place outer.contained stored) looped)
    | looped outer' stored' looped' =>
      obtain rfl := tree.parent outer.contained outer'.contained contains
        ⟨_, stored', ExprKind.mem_children_of_loopBody? looped'⟩
      rfl

end Arena

end TreeLowering.Tree
