/-
This file proves that whole expressions and function bodies can be lowered in two monitored runs
beside each other. One level of an expression goes through when its parts do; where nothing contains
itself, neither run reaches the bound on the depth, so both go down to the same leaves.
-/

import TreeLowering.Proofs.Blame
import TreeLowering.Proofs.Pair.Construct
import TreeLowering.Proofs.Pair.Monitor

namespace TreeLowering.Tree.ExprKind

/-- What a field or an element is taken from. -/
def base? : ExprKind → Option ExprId
  | field base _ | index base _ => some base
  | _ => none

/-- The scope in which the parts of an expression look names up. -/
def inner (scope : ScopeId) : ExprKind → ScopeId
  | block own _ _ => own
  | _ => scope

end TreeLowering.Tree.ExprKind

namespace TreeLowering.Tree.Program

open Relation

/-- The expressions of a body, each with the scope that its names are looked up from. -/
inductive Meets (program : Program) (scope : ScopeId) (body : ExprId) : ScopeId → ExprId → Prop
  | body : Meets program scope body scope body
  | part {outer : ScopeId} {expr part : ExprId} {node : Node}
      (met : Meets program scope body outer expr) (found : program.arena.get? expr = some node)
      (member : part ∈ node.kind.children) : Meets program scope body (node.kind.inner outer) part

theorem Meets.reached {program : Program} {scope inner : ScopeId} {body expr : ExprId}
    (met : program.Meets scope body inner expr) : ReflTransGen program.arena.Contains body expr := by
  induction met with
  | body => exact .refl
  | part _ found member inductionHypothesis =>
    exact inductionHypothesis.tail ⟨_, found, member⟩

end TreeLowering.Tree.Program

namespace TreeLowering.Lowering

open TreeLowering.Ir TreeLowering.Tree

namespace Pairing

/-- The pairing allows what an expression does. -/
structure Fits (pairing : Pairing) (program : Program) (kind : ExprKind) : Prop where
  texts : ∀ text, kind = .str text → pairing.hasTexts
  borrows : ∀ mutable operand, kind = .borrow mutable operand →
    pairing.Addressed program.arena operand
  bases : ∀ base, kind.base? = some base → ∀ node, program.arena.get? base = some node →
    (program.types.peelReferences node.ty).2 = 0 → pairing.Addressed program.arena base

/-- The steps that are looked at can be taken beside each other by the two monitored runs. -/
structure Watches (pairing : Pairing) (monitor monitor' : Monitor) (source source' : Source)
    (taken : List Name) : Prop where
  lets : ∀ {walk : Walk} {twin : Twin} {scope context context' name mutable ty}
    {init : Option ExprId} {value : Option Value}, walk.toSource = source →
    walk.addressTaken = taken → (walk.swap twin).toSource = source' →
    (∀ part ∈ init, twin.arena.get? part = walk.program.arena.get? part) →
    (∀ found ∈ value, pairing.sound context.work context'.work found) →
    pairing.Agrees scope (monitor.slot (bindSlot walk name mutable ty init value))
      (monitor'.slot (bindSlot (walk.swap twin) name mutable ty init value)) context context'
      fun _ _ _ => True
  params : ∀ {scope context context' param} {value : Value},
    pairing.sound context.work context'.work value →
    pairing.Agrees scope (monitor.slot (bindParam source taken param value))
      (monitor'.slot (bindParam source' taken param value)) context context' fun _ _ _ => True
  places : ∀ {walk walk' : Walk} {scope context context' expr}, walk.toSource = source →
    pairing.Addressed source.program.arena expr →
    pairing.Agrees scope (lowerNodePlace walk expr) (lowerNodePlace walk' expr) context context'
      pairing.Places →
    pairing.Agrees scope (monitor.place expr (lowerNodePlace walk expr))
      (monitor'.place expr (lowerNodePlace walk' expr)) context context' pairing.Places
  targets : ∀ (inner inner' : Walk) {walk walk' : Walk} {scope context context' part name}
    {span : Span} {node} {next next' : Place → LowerM Value}, inner.toSource = source →
    inner'.toSource = source' →
    source.program.arena.get? part = some node → node.kind = .path [name] →
    source'.program.arena.get? part = some node →
    ¬ pairing.addresses name → pairing.looksUp scope name →
    walk.place part = monitor.place part (lowerNodePlace inner part) →
    walk'.place part = monitor'.place part (lowerNodePlace inner' part) →
    (∀ place after after', pairing.Places place after after' →
      pairing.Agrees scope (next place) (next' place) after after' pairing.Yields) →
    pairing.Agrees scope (withTarget walk part span next) (withTarget walk' part span next')
      context context' pairing.Yields

namespace Steady

/-! ### Slots -/

section Slots

variable {pairing : Pairing} {walk : Walk} {twin : Twin} {scope : ScopeId}
  {context context' : Context}
  (steady : pairing.Steady walk.toSource (walk.swap twin).toSource walk.addressTaken)

include steady

/-- Where slots may be named, a name can be bound to a new slot. -/
theorem bindSlot (names : pairing.namesSlots) {name : Name} {mutable : Bool} {ty : TypeId}
    {init : Option ExprId} {value : Option Value}
    (same : ∀ part ∈ init, twin.arena.get? part = walk.program.arena.get? part)
    (sound : ∀ found ∈ value, pairing.sound context.work context'.work found) :
    pairing.Agrees scope (bindSlot walk name mutable ty init value)
      (bindSlot (walk.swap twin) name mutable ty init value) context context'
      fun _ _ _ => True := by
  have typed : pairing.Agrees scope (slotType walk ty init) (slotType (walk.swap twin) ty init)
      context context' fun _ _ _ => True := by
    unfold slotType
    split
    · cases init with
      | none => exact .pure trivial
      | some part =>
        exact (steady.node (same part rfl)).bind fun node _ _ _ _ => .pure ⟨rfl, trivial⟩
    · exact .pure trivial
  refine typed.bind fun ty _ _ later _ => ?_
  refine (steady.lowerType ty).bind fun found _ _ later' mapped => ?_
  refine (steady.slot (fun _ => names) mapped.2).bind fun address _ _ later'' homes => ?_
  cases value with
  | none => exact Agrees.bindName steady.slots homes
  | some value =>
    have sound' := later'' _ (later' _ (later _ (sound value rfl)))
    exact (steady.store homes sound').bind fun _ _ _ stored _ =>
      Agrees.bindName steady.slots (homes.later stored)

end Slots

/-- Where slots may be named, a parameter can be bound. -/
theorem bindParam {pairing : Pairing} {source source' : Source} {taken : List Name}
    {scope : ScopeId} {context context' : Context}
    (steady : pairing.Steady source source' taken) (same : source'.names = source.names)
    (names : pairing.namesSlots) {param : Tree.Param} {value : Value}
    (sound : pairing.sound context.work context'.work value) :
    pairing.Agrees scope (bindParam source taken param value) (bindParam source' taken param value)
      context context' fun _ _ _ => True := by
  unfold Lowering.bindParam
  rw [same]
  split
  · refine (steady.spill (fun _ => names) sound).bind fun place _ _ _ placed => ?_
    exact Agrees.bindName steady.slots placed
  · next plain =>
    rw [Bool.or_eq_true, not_or, List.contains_iff_mem] at plain
    exact Agrees.bindName (steady.plain plain.2).2 sound

/-- Where slots may be named and all names may be addressed, there is nothing to look at. -/
theorem idle {pairing : Pairing} {source : Source} {arena : Arena} {items : List Item}
    {taken : List Name} (steady : pairing.Steady source (source.swap arena items) taken)
    (names : pairing.namesSlots) (addresses : ∀ name, pairing.addresses name) :
    pairing.Watches .idle .idle source (source.swap arena items) taken where
  lets := by
    intro walk twin scope context context' name mutable ty init value here here' there same sound
    subst here here'
    rw [← there] at steady
    exact steady.bindSlot names same sound
  params sound := steady.bindParam rfl names sound
  places _ _ placed := placed
  targets _ _ := by
    intro _ _ _ _ _ _ name _ _ _ _ _ _ _ _ _ hidden
    exact absurd (addresses name) hidden

/-! ### Blocks -/

section Blocks

variable {pairing : Pairing} {walk : Walk} {twin : Twin} {scope : ScopeId}
  {context context' : Context} {monitor monitor' : Monitor}
  (steady : pairing.Steady walk.toSource (walk.swap twin).toSource walk.addressTaken)
  (watches : pairing.Watches monitor monitor' walk.toSource (walk.swap twin).toSource
    walk.addressTaken)

include steady watches

theorem lowerLet {name : Name} {mutable : Bool} {ty : TypeId} {init : Option ExprId}
    (lowers : ∀ part ∈ init, pairing.Lowers walk (walk.swap twin) scope part) :
    pairing.Agrees scope (monitor.lowerLet walk name mutable ty init)
      (monitor'.lowerLet (walk.swap twin) name mutable ty init) context context'
      fun _ _ _ => True := by
  have same : ∀ part ∈ init, twin.arena.get? part = walk.program.arena.get? part :=
    fun part member => (lowers part member).same
  cases init with
  | none => exact watches.lets rfl rfl rfl same nofun
  | some init =>
    refine steady.thenLive ((lowers init rfl).expr context context')
      (fun value _ _ _ sound => ?_) fun _ _ => trivial
    split
    · refine watches.lets rfl rfl rfl same fun found member => ?_
      cases member
      exact sound
    · next plain =>
      rw [Bool.or_eq_true, not_or, List.contains_iff_mem] at plain
      exact steady.pin.bind fun _ _ _ later _ =>
        Agrees.bindName (steady.plain plain.2).1 (later _ sound)

theorem lowerStmt {stmt : Stmt}
    (lowers : ∀ part ∈ stmt.child?, pairing.Lowers walk (walk.swap twin) scope part) :
    pairing.Agrees scope (monitor.lowerStmt walk stmt) (monitor'.lowerStmt (walk.swap twin) stmt)
      context context' fun _ _ _ => True := by
  have evaluated : ∀ part ∈ stmt.child?, pairing.Agrees scope (discard (walk.expr part))
      (discard (twin.expr part)) context context' fun _ _ _ => True := fun part member =>
    Matches.discard (Matches.mono ((lowers part member).expr context context')
      fun _ _ _ _ _ _ => ⟨rfl, trivial⟩)
  cases stmt with
  | bind pattern ty init span =>
    cases pattern with
    | ident name mutable => exact steady.lowerLet watches lowers
    | wildcard =>
      cases init with
      | none => exact .pure trivial
      | some init => exact evaluated init rfl
    | tuple => exact steady.fails
  | expr value => exact evaluated value rfl
  | semi value => exact evaluated value rfl
  | item span => exact steady.fails

theorem lowerStmts {stmts : List Stmt} {tail : Option ExprId}
    (lowers : ∀ stmt ∈ stmts, ∀ part ∈ stmt.child?,
      pairing.Lowers walk (walk.swap twin) scope part)
    (lowers' : ∀ part ∈ tail, pairing.Lowers walk (walk.swap twin) scope part) :
    pairing.Agrees scope (monitor.lowerStmts walk stmts tail)
      (monitor'.lowerStmts (walk.swap twin) stmts tail) context context' pairing.Yields := by
  induction stmts generalizing context context' with
  | nil =>
    cases tail with
    | none => exact .pure (steady.yields_unit _ _)
    | some tail => exact (lowers' tail rfl).expr context context'
  | cons stmt rest inductionHypothesis =>
    refine steady.thenLive (steady.lowerStmt watches (lowers stmt List.mem_cons_self))
      (fun _ _ _ _ _ => ?_) steady.yields_unreachable
    exact inductionHypothesis fun stmt member => lowers stmt (List.mem_cons_of_mem _ member)

/-! ### One level -/

variable {expr : ExprId} {node : Node}

variable (walk twin) in
/-- One level of an expression, lowered to its value. -/
theorem lowerNode (found : walk.program.arena.get? expr = some node)
    (found' : twin.arena.get? expr = some node)
    (looked : pairing.LookedUp walk.program.arena scope expr)
    (fits : pairing.Fits walk.program node.kind)
    (parts : ∀ part ∈ node.kind.children,
      pairing.Lowers walk (walk.swap twin) (node.kind.inner scope) part)
    (home : node.kind.isPlace = true → ∀ context context',
      pairing.Agrees scope (walk.place expr) (twin.place expr) context context' pairing.Places) :
    pairing.Agrees scope (monitor.lowerNode walk expr) (monitor'.lowerNode (walk.swap twin) expr)
      context context' pairing.Yields := by
  obtain ⟨kind, span, ty⟩ := node
  -- both runs see the same node, so they take the same way
  have opened : ∀ {context context'}, pairing.Agrees scope (walk.node expr)
      ((walk.swap twin).node expr) context context' fun other after after' =>
        other = ⟨kind, span, ty⟩ ∧ after = context ∧ after' = context' := fun {_ _} =>
    (steady.node (found'.trans found.symm)).mono fun other _ _ _ ⟨stored, here, here'⟩ =>
      ⟨Option.some.inj (stored.symm.trans found), here, here'⟩
  have read : kind.isPlace = true → ∀ {context context'}, pairing.Agrees scope
      (Lowering.thenLive .unreachable (walk.place expr) Lowering.loadPlace)
      (Lowering.thenLive .unreachable (twin.place expr) Lowering.loadPlace) context context'
      pairing.Yields := fun place =>
    steady.thenLive (home place _ _) (fun place _ _ _ placed => steady.loadPlace placed)
      steady.yields_unreachable
  by_cases block : ∃ own stmts tail, kind = .block own stmts tail
  · obtain ⟨own, stmts, tail, rfl⟩ := block
    unfold Monitor.lowerNode
    rw [found, found']
    refine steady.whenLive (steady.yields_unreachable _ _) fun _ => ?_
    refine Agrees.inScope (fun (value : Value) work work' => pairing.sound work work' value) ?_
    refine steady.lowerStmts watches (fun stmt member part child => parts part ?_)
      fun part member => parts part ?_
    · exact List.mem_append_left _ (List.mem_filterMap.2 ⟨stmt, member, child⟩)
    · exact List.mem_append_right _ (Option.mem_toList.2 member)
  have straight : ∀ monitor : Monitor, ∀ walk : Walk,
      walk.program.arena.get? expr = some ⟨kind, span, ty⟩ →
        monitor.lowerNode walk expr = Lowering.lowerNode walk expr := by
    intro monitor walk found
    unfold Monitor.lowerNode
    rw [found]
    split
    · next own stmts tail _ _ same =>
      cases same
      exact absurd ⟨own, stmts, tail, rfl⟩ block
    · rfl
  rw [straight monitor walk found, straight monitor' (walk.swap twin) found']
  have lowers : ∀ part ∈ kind.children, pairing.Lowers walk (walk.swap twin) scope part := by
    intro part member
    have lowers := parts part member
    cases kind with
    | block own stmts tail => exact absurd ⟨own, stmts, tail, rfl⟩ block
    | _ => exact lowers
  refine steady.whenLive (steady.yields_unreachable _ _) fun _ => ?_
  refine opened.bind ?_
  rintro _ context context' - ⟨rfl, rfl, rfl⟩
  cases kind with
  | int value => exact steady.lowerInt value ty
  | bool value => exact .pure ⟨rfl, steady.scalars rfl (steady.prims .bool)⟩
  | char value => exact .pure ⟨rfl, steady.scalars rfl (steady.prims .char)⟩
  | str text => exact steady.literals (fits.texts text rfl) _
  | unit => exact .pure ⟨rfl, steady.yields_unit _ _⟩
  | path segments =>
    refine steady.lowerPath span fun name single => looked name span ty ?_
    rw [found, single]
  | binary op left right =>
    exact steady.lowerBinary op (lowers left (by simp [ExprKind.children]))
      (lowers right (by simp [ExprKind.children])) span
  | unary op operand => exact steady.lowerUnary op (lowers operand List.mem_cons_self)
  | assign target value =>
    exact steady.lowerAssign (lowers target (by simp [ExprKind.children]))
      (lowers value (by simp [ExprKind.children])) span
  | compound op target value =>
    exact steady.lowerCompound op (lowers target (by simp [ExprKind.children]))
      (lowers value (by simp [ExprKind.children])) span
  | borrow mutable operand =>
    exact steady.lowerBorrow mutable (lowers operand List.mem_cons_self) span
      (fits.borrows mutable operand rfl)
  | cast operand => exact steady.lowerCast (lowers operand List.mem_cons_self) ty span
  | deref operand => exact read rfl
  | field base field => exact read rfl
  | index base position => exact read rfl
  | block own stmts tail => exact absurd ⟨own, stmts, tail, rfl⟩ block
  | cond test thenArm elseArm => exact steady.lowerCond ty span lowers
  | whileLoop test body =>
    exact steady.lowerWhile (lowers test (by simp [ExprKind.children]))
      (lowers body (by simp [ExprKind.children])) span
  | loop body => exact steady.lowerLoop (lowers body List.mem_cons_self) ty
  | breakLoop => exact steady.lowerLoopJump .leave span
  | continueLoop => exact steady.lowerLoopJump .again span
  | returnWith value =>
    exact steady.lowerReturn span fun part member => lowers part (Option.mem_toList.2 member)
  | call callee args =>
    exact steady.lowerCall (lowers callee List.mem_cons_self)
      (fun arg member => lowers arg (List.mem_cons_of_mem _ member)) span
  | structLit inits =>
    exact steady.lowerStructLit (fun init member => lowers init.value (List.mem_map_of_mem member))
      ty span
  | array elems => exact steady.lowerArray lowers ty span
  | methodCall receiver method args => exact steady.fails
  | tuple elems => exact steady.fails
  | select scrutinee => exact steady.fails

variable (walk twin) in
omit watches in
/-- One level of an expression, lowered to the address it denotes. -/
theorem lowerNodePlace (found : walk.program.arena.get? expr = some node)
    (found' : twin.arena.get? expr = some node)
    (looked : pairing.LookedUp walk.program.arena scope expr)
    (addressed : pairing.Addressed walk.program.arena expr)
    (fits : pairing.Fits walk.program node.kind)
    (parts : ∀ part ∈ node.kind.children,
      pairing.Lowers walk (walk.swap twin) (node.kind.inner scope) part)
    (home : node.kind.isPlace = false → ∀ context context',
      pairing.Agrees scope (walk.expr expr) (twin.expr expr) context context' pairing.Yields) :
    pairing.Agrees scope (lowerNodePlace walk expr) (lowerNodePlace (walk.swap twin) expr) context
      context' pairing.Places := by
  obtain ⟨kind, span, ty⟩ := node
  have opened : ∀ {context context'}, pairing.Agrees scope (walk.node expr)
      ((walk.swap twin).node expr) context context' fun other after after' =>
        other = ⟨kind, span, ty⟩ ∧ after = context ∧ after' = context' := fun {_ _} =>
    (steady.node (found'.trans found.symm)).mono fun other _ _ _ ⟨stored, here, here'⟩ =>
      ⟨Option.some.inj (stored.symm.trans found), here, here'⟩
  refine steady.whenLive (steady.places_unreachable _ _) fun _ => ?_
  refine opened.bind ?_
  rintro _ context context' - ⟨rfl, rfl, rfl⟩
  have homeless : kind.isPlace = false → pairing.Agrees scope
      (Lowering.thenLive .unreachable (walk.expr expr) fun value => Lowering.spill value none)
      (Lowering.thenLive .unreachable (twin.expr expr) fun value => Lowering.spill value none)
      context context' pairing.Places := fun plain =>
    steady.thenLive (home plain _ _)
      (fun value _ _ _ sound => steady.spill (fun impossible => by cases impossible) sound)
      steady.places_unreachable
  have nowhere : pairing.Agrees scope
      (throw (.notAddressable kind.describe span) : LowerM Place)
      (throw (.notAddressable kind.describe span) : LowerM Place) context context'
      pairing.Places := steady.fails
  cases kind with
  | path segments =>
    refine steady.pathPlace span (fun name single => looked name span ty ?_)
      fun name single => addressed name span ty ?_
    · rw [found, single]
    · rw [found, single]
  | deref operand =>
    exact steady.thenLive ((parts operand List.mem_cons_self).expr context context')
      (fun pointer _ _ _ sound => steady.derefPlace span sound) steady.places_unreachable
  | field base field =>
    exact steady.fieldPlace (parts base List.mem_cons_self) field span (fits.bases base rfl)
  | index base position =>
    exact steady.elementPlace (parts base (by simp [ExprKind.children]))
      (parts position (by simp [ExprKind.children])) span (fits.bases base rfl)
  | assign target value => exact nowhere
  | compound op target value => exact nowhere
  | whileLoop test body => exact nowhere
  | loop body => exact nowhere
  | breakLoop => exact nowhere
  | continueLoop => exact nowhere
  | returnWith value => exact nowhere
  | _ => exact homeless rfl

end Blocks

end Steady

/-! ### Whole expressions -/

/-- The expressions that are met, each with the scope that names are looked up from: both programs
have them, and the pairing allows what they do. -/
structure Covers (pairing : Pairing) (source : Source) (arena : Arena)
    (meets : ScopeId → ExprId → Prop) : Prop where
  found : ∀ {scope expr}, meets scope expr → ∃ node, source.program.arena.get? expr = some node ∧
    arena.get? expr = some node ∧ pairing.Fits source.program node.kind ∧
      ∀ part ∈ node.kind.children, meets (node.kind.inner scope) part
  looked : ∀ {scope expr}, meets scope expr → pairing.LookedUp source.program.arena scope expr

namespace Covers

variable {pairing : Pairing} {source : Source} {arena : Arena} {items : List Item}
  {meets : ScopeId → ExprId → Prop} {monitor monitor' : Monitor} {taken : List Name}
  (covers : pairing.Covers source arena meets)
  (acyclic : ∀ expr, ¬ Relation.TransGen source.program.arena.Contains expr expr)
  (acyclic' : ∀ expr, ¬ Relation.TransGen arena.Contains expr expr)
  (steady : pairing.Steady source (source.swap arena items) taken)
  (watches : pairing.Watches monitor monitor' source (source.swap arena items) taken)

include covers acyclic acyclic' steady watches

/-- An expression is met at most twice on the way down, once for its value and once for its place;
the second time is the way that does not come back to it. -/
theorem within (fuel fuel' : Nat) {scope : ScopeId} {expr : ExprId} {node : Node}
    (met : meets scope expr) (found : source.program.arena.get? expr = some node) :
    (2 * source.exprRank expr ≤ fuel → 2 * (source.swap arena items).exprRank expr ≤ fuel' →
      pairing.Lowers (monitor.walk source taken fuel)
        (monitor'.walk (source.swap arena items) taken fuel') scope expr) ∧
    (2 * source.exprRank expr ≤ fuel + 1 →
      2 * (source.swap arena items).exprRank expr ≤ fuel' + 1 →
      (node.kind.isPlace = true → ∀ context context', pairing.Agrees scope
        (monitor.placeWithin source taken fuel expr)
        (monitor'.placeWithin (source.swap arena items) taken fuel' expr) context context'
        pairing.Places) ∧
      (node.kind.isPlace = false → ∀ context context', pairing.Agrees scope
        (monitor.lowerWithin source taken fuel expr)
        (monitor'.lowerWithin (source.swap arena items) taken fuel' expr) context context'
        pairing.Yields)) := by
  induction fuel generalizing fuel' scope expr node with
  | zero =>
    have positive : 0 < source.exprRank expr := rank_pos (inside_of_get? found)
    exact ⟨fun enough => by omega, fun enough => by omega⟩
  | succ fuel inductionHypothesis =>
    obtain ⟨node', stored, found', fits, children⟩ := covers.found met
    cases found.symm.trans stored
    have inside : expr.index < (source.swap arena items).program.arena.size := inside_of_get? found'
    have positive : 0 < (source.swap arena items).exprRank expr := rank_pos inside
    cases fuel' with
    | zero => exact ⟨fun _ enough => by omega, fun _ enough => by omega⟩
    | succ fuel' =>
    have looked := covers.looked met
    have parts : 2 * source.exprRank expr ≤ fuel + 2 →
        2 * (source.swap arena items).exprRank expr ≤ fuel' + 2 → ∀ part ∈ node.kind.children,
          pairing.Lowers (monitor.walk source taken fuel)
            (monitor'.walk (source.swap arena items) taken fuel') (node.kind.inner scope) part := by
      intro enough enough' part member
      have less : source.exprRank part < source.exprRank expr :=
        rank_lt (acyclic _) (inside_of_get? found) ⟨node, found, member⟩
      have less' : (source.swap arena items).exprRank part <
          (source.swap arena items).exprRank expr :=
        rank_lt (acyclic' _) inside ⟨node, found', member⟩
      obtain ⟨inner, stored, _⟩ := covers.found (children part member)
      exact (inductionHypothesis fuel' (children part member) stored).1 (by omega) (by omega)
    -- the walk of the second run, seen from the first
    let twin : Twin := ⟨arena, items, monitor'.lowerWithin (source.swap arena items) taken fuel',
      monitor'.placeWithin (source.swap arena items) taken fuel'⟩
    have valued : 2 * source.exprRank expr ≤ fuel + 2 →
        2 * (source.swap arena items).exprRank expr ≤ fuel' + 2 →
        (node.kind.isPlace = true → ∀ context context', pairing.Agrees scope
          (monitor.placeWithin source taken fuel expr)
          (monitor'.placeWithin (source.swap arena items) taken fuel' expr) context context'
          pairing.Places) → ∀ context context', pairing.Agrees scope
            (monitor.lowerWithin source taken (fuel + 1) expr)
            (monitor'.lowerWithin (source.swap arena items) taken (fuel' + 1) expr) context context'
            pairing.Yields := fun enough enough' home context context' =>
      Steady.lowerNode (monitor.walk source taken fuel) twin steady watches found found' looked
        fits (parts enough enough') home
    have placed : pairing.Addressed source.program.arena expr →
        2 * source.exprRank expr ≤ fuel + 2 →
        2 * (source.swap arena items).exprRank expr ≤ fuel' + 2 →
        (node.kind.isPlace = false → ∀ context context', pairing.Agrees scope
          (monitor.lowerWithin source taken fuel expr)
          (monitor'.lowerWithin (source.swap arena items) taken fuel' expr) context context'
          pairing.Yields) → ∀ context context', pairing.Agrees scope
            (monitor.placeWithin source taken (fuel + 1) expr)
            (monitor'.placeWithin (source.swap arena items) taken (fuel' + 1) expr) context context'
            pairing.Places := fun addressed enough enough' home context context' =>
      watches.places rfl addressed (Steady.lowerNodePlace (monitor.walk source taken fuel) twin
        steady found found' looked addressed fits (parts enough enough') home)
    refine ⟨fun enough enough' => ?_, fun enough enough' => ⟨fun place => ?_, fun plain => ?_⟩⟩
    · obtain ⟨places, values⟩ := (inductionHypothesis fuel' met found).2 enough enough'
      have homed := fun addressed => placed addressed (by omega) (by omega) values
      refine ⟨found'.trans found.symm, looked, valued (by omega) (by omega) places, homed, ?_⟩
      intro context context' span next next' rest
      by_cases stray : ∃ name, node.kind = .path [name] ∧ ¬ pairing.addresses name
      · obtain ⟨name, path, hidden⟩ := stray
        obtain ⟨kind, nodeSpan, ty⟩ := node
        obtain rfl : kind = .path [name] := path
        exact watches.targets (monitor.walk source taken fuel)
          (monitor'.walk (source.swap arena items) taken fuel') rfl rfl found rfl found' hidden
          (looked name nodeSpan ty found) rfl rfl rest
      · have addressed : pairing.Addressed source.program.arena expr := by
          intro name span ty stored
          cases found.symm.trans stored
          exact Classical.not_not.1 fun hidden => stray ⟨name, rfl, hidden⟩
        exact steady.withTarget span (homed addressed context context') rest
    · refine placed (fun name span ty stored => ?_) enough enough' fun plain => ?_
      · cases found.symm.trans stored
        cases place
      · rw [place] at plain
        cases plain
    · refine valued enough enough' fun place => ?_
      rw [plain] at place
      cases place

/-- Two monitored runs lower an expression that is met beside each other. -/
theorem lowerExpr {scope : ScopeId} {expr : ExprId} (met : meets scope expr)
    (context context' : Context) :
    pairing.Agrees scope (monitor.lowerExpr source taken expr)
      (monitor'.lowerExpr (source.swap arena items) taken expr) context context'
      pairing.Yields := by
  obtain ⟨node, found, _⟩ := covers.found met
  refine ((covers.within acyclic acyclic' steady watches source.exprDepth
    (source.swap arena items).exprDepth met found).1 ?_ ?_).expr context context'
  · have most : source.exprRank expr ≤ source.program.arena.size := rank_le expr
    unfold Source.exprDepth
    omega
  · have most : (source.swap arena items).exprRank expr ≤ arena.size := rank_le expr
    show _ ≤ 2 * (arena.size + roundLimit) + 2
    omega

end Covers

/-! ### Bodies -/

/-- Two functions have the same parameters. -/
def SameParams (pairing : Pairing) (work work' : Work) :
    Except Ir.Error Function → Except Ir.Error Function → Prop
  | .ok function, .ok function' => ∀ position,
    function'.paramValue? position = function.paramValue? position ∧
      ∀ value ∈ function.paramValue? position, pairing.sound work work' value
  | .error cause, .error cause' => pairing.excused (.ir cause) (.ir cause')
  | _, _ => False

section Body

variable {pairing : Pairing} {source : Source} {arena : Arena} {items : List Item}
  {monitor monitor' : Monitor} {taken : List Name} {func func' : FuncId} {scope : ScopeId}
  {context context' : Context}
  (steady : pairing.Steady source (source.swap arena items) taken)
  (watches : pairing.Watches monitor monitor' source (source.swap arena items) taken)
  (given : ∀ {work work'}, pairing.holds work work' →
    pairing.SameParams work work' (work.builder.target.getFunction func)
      (work'.builder.target.getFunction func'))

include steady watches given

theorem Steady.bindParams (position : Nat) (params : List Tree.Param) :
    pairing.Agrees scope (monitor.bindParams source taken func position params)
      (monitor'.bindParams (source.swap arena items) taken func' position params) context context'
      fun _ _ _ => True := by
  induction params generalizing context context' position with
  | nil => exact .pure trivial
  | cons param rest inductionHypothesis =>
    have asked : pairing.Matches scope (build (Build.ask fun target => target.getFunction func))
        (build (Build.ask fun target => target.getFunction func')) context context'
        fun function function' after after' =>
          function'.paramValue? position = function.paramValue? position ∧
            ∀ value ∈ function.paramValue? position, pairing.sound after.work after'.work value := by
      intro rules
      have known := given rules.holds
      rw [build_ask, build_ask]
      change pairing.SameParams _ _ (context.builder.target.getFunction func)
        (context'.builder.target.getFunction func') at known
      cases found : context.builder.target.getFunction func <;>
        cases found' : context'.builder.target.getFunction func' <;> rw [found, found'] at known
      · exact .inl known
      · exact known.elim
      · exact known.elim
      · exact ⟨rules, fun _ => id, known position⟩
    refine asked.bind fun function function' _ _ _ ⟨same, sound⟩ => ?_
    rw [same]
    cases found : function.paramValue? position with
    | none => exact steady.fails
    | some value =>
      exact (watches.params (sound value found)).bind fun _ _ _ _ _ =>
        inductionHypothesis (position + 1)

/-- A body, from its parameters to the return at its end. -/
theorem Covers.body {meets : ScopeId → ExprId → Prop} {decl : FunctionDecl} {ret : Ty}
    {body : ExprId} (covers : pairing.Covers source arena meets)
    (acyclic : ∀ expr, ¬ Relation.TransGen source.program.arena.Contains expr expr)
    (acyclic' : ∀ expr, ¬ Relation.TransGen arena.Contains expr expr)
    (met : meets decl.scope body) (admits : pairing.Admits context.work context'.work ret) :
    pairing.Agrees scope
      (inFunction ret do
        inScope decl.scope do
          monitor.bindParams source taken func 0 decl.params
          thenLive () (monitor.lowerExpr source taken body) (finishBody ret))
      (inFunction ret do
        inScope decl.scope do
          monitor'.bindParams (source.swap arena items) taken func' 0 decl.params
          thenLive () (monitor'.lowerExpr (source.swap arena items) taken body) (finishBody ret))
      context context' fun _ _ _ => True := by
  refine Agrees.inFunction (fun _ _ _ => True) (Agrees.inScope (fun _ _ _ => True) ?_)
  refine (steady.bindParams watches given 0 decl.params).bind fun _ _ _ bound _ => ?_
  refine steady.thenLive (covers.lowerExpr acyclic acyclic' steady watches met _ _)
    (fun value _ _ lowered yields => ?_) fun _ _ => trivial
  exact steady.ret (returned (Yields.retype yields (lowered _ (bound _ admits))))

end Body

end Pairing

end TreeLowering.Lowering
