/-
This file says which names a body addresses, and proves that the search finds these and no others.
The search marks what it has met. A worklist without marks goes through a shared part once for each
way that leads to it; it finds the same names, and it comes to an end because nothing contains
itself: taking one expression off the list, with all that is below it, leaves what waited before.
-/

import TreeLowering.Proofs.Slots.Taken

namespace TreeLowering.Tree

open Relation

/-! ### Parts by their role -/

/-- What an expression consists of, one line for each role that a part can have. -/
inductive ExprKind.HasPart : ExprKind → ExprId → Prop
  | binaryLeft {op : BinaryOp} {left right : ExprId} : HasPart (.binary op left right) left
  | binaryRight {op : BinaryOp} {left right : ExprId} : HasPart (.binary op left right) right
  | unary {op : UnaryOp} {operand : ExprId} : HasPart (.unary op operand) operand
  | assignTarget {target value : ExprId} : HasPart (.assign target value) target
  | assignValue {target value : ExprId} : HasPart (.assign target value) value
  | compoundTarget {op : BinaryOp} {target value : ExprId} :
      HasPart (.compound op target value) target
  | compoundValue {op : BinaryOp} {target value : ExprId} :
      HasPart (.compound op target value) value
  | borrow {mutable : Bool} {operand : ExprId} : HasPart (.borrow mutable operand) operand
  | deref {operand : ExprId} : HasPart (.deref operand) operand
  | cast {operand : ExprId} : HasPart (.cast operand) operand
  | initialiser {scope : ScopeId} {stmts : List Stmt} {tail : Option ExprId} {pattern : Pattern}
      {ty : TypeId} {init : ExprId} {span : Span}
      (listed : .bind pattern ty (some init) span ∈ stmts) : HasPart (.block scope stmts tail) init
  | statement {scope : ScopeId} {stmts : List Stmt} {tail : Option ExprId} {value : ExprId}
      (listed : .expr value ∈ stmts) : HasPart (.block scope stmts tail) value
  | closedStatement {scope : ScopeId} {stmts : List Stmt} {tail : Option ExprId} {value : ExprId}
      (listed : .semi value ∈ stmts) : HasPart (.block scope stmts tail) value
  | tail {scope : ScopeId} {stmts : List Stmt} {value : ExprId} :
      HasPart (.block scope stmts (some value)) value
  | test {test thenArm : ExprId} {elseArm : Option ExprId} :
      HasPart (.cond test thenArm elseArm) test
  | thenArm {test thenArm : ExprId} {elseArm : Option ExprId} :
      HasPart (.cond test thenArm elseArm) thenArm
  | elseArm {test thenArm elseArm : ExprId} : HasPart (.cond test thenArm (some elseArm)) elseArm
  | whileTest {test body : ExprId} : HasPart (.whileLoop test body) test
  | whileBody {test body : ExprId} : HasPart (.whileLoop test body) body
  | loopBody {body : ExprId} : HasPart (.loop body) body
  | returned {value : ExprId} : HasPart (.returnWith (some value)) value
  | callee {callee : ExprId} {args : List ExprId} : HasPart (.call callee args) callee
  | argument {callee arg : ExprId} {args : List ExprId} (listed : arg ∈ args) :
      HasPart (.call callee args) arg
  | receiver {receiver : ExprId} {method : Name} {args : List ExprId} :
      HasPart (.methodCall receiver method args) receiver
  | methodArgument {receiver arg : ExprId} {method : Name} {args : List ExprId}
      (listed : arg ∈ args) : HasPart (.methodCall receiver method args) arg
  | fieldInitialiser {init : FieldInit} {inits : List FieldInit} (listed : init ∈ inits) :
      HasPart (.structLit inits) init.value
  | fieldBase {base : ExprId} {name : Name} : HasPart (.field base name) base
  | indexBase {base position : ExprId} : HasPart (.index base position) base
  | position {base position : ExprId} : HasPart (.index base position) position
  | element {elem : ExprId} {elems : List ExprId} (listed : elem ∈ elems) :
      HasPart (.array elems) elem
  | component {elem : ExprId} {elems : List ExprId} (listed : elem ∈ elems) :
      HasPart (.tuple elems) elem
  | scrutinee {scrutinee : ExprId} : HasPart (.select scrutinee) scrutinee

theorem Stmt.child?_eq_some_iff {stmt : Stmt} {part : ExprId} :
    stmt.child? = some part ↔
      (∃ pattern ty span, stmt = .bind pattern ty (some part) span) ∨ stmt = .expr part ∨
        stmt = .semi part := by
  cases stmt with
  | bind pattern ty init span => simp [child?]
  | expr value => simp [child?]
  | semi value => simp [child?]
  | item span => simp [child?]

/-- No role is missing among the parts that every traversal follows. -/
theorem ExprKind.mem_children_iff {kind : ExprKind} {part : ExprId} :
    part ∈ kind.children ↔ kind.HasPart part := by
  constructor
  · intro member
    cases kind with
    | binary op left right =>
      rcases List.mem_pair.1 member with rfl | rfl
      · exact .binaryLeft
      · exact .binaryRight
    | assign target value =>
      rcases List.mem_pair.1 member with rfl | rfl
      · exact .assignTarget
      · exact .assignValue
    | compound op target value =>
      rcases List.mem_pair.1 member with rfl | rfl
      · exact .compoundTarget
      · exact .compoundValue
    | whileLoop test body =>
      rcases List.mem_pair.1 member with rfl | rfl
      · exact .whileTest
      · exact .whileBody
    | index base position =>
      rcases List.mem_pair.1 member with rfl | rfl
      · exact .indexBase
      · exact .position
    | unary | borrow | deref | cast | loop | field | select =>
      obtain rfl := List.mem_singleton.1 member
      constructor
    | block scope stmts tail =>
      rcases List.mem_append.1 member with statement | last
      · obtain ⟨stmt, listed, child⟩ := List.mem_filterMap.1 statement
        rcases Stmt.child?_eq_some_iff.1 child with ⟨pattern, ty, span, rfl⟩ | rfl | rfl
        · exact .initialiser listed
        · exact .statement listed
        · exact .closedStatement listed
      · obtain rfl := Option.mem_toList.1 last
        exact .tail
    | cond test thenArm elseArm =>
      rcases List.mem_cons.1 member with rfl | member
      · exact .test
      · rcases List.mem_cons.1 member with rfl | member
        · exact .thenArm
        · obtain rfl := Option.mem_toList.1 member
          exact .elseArm
    | returnWith value =>
      obtain rfl := Option.mem_toList.1 member
      exact .returned
    | call callee args =>
      rcases List.mem_cons.1 member with rfl | listed
      · exact .callee
      · exact .argument listed
    | methodCall receiver method args =>
      rcases List.mem_cons.1 member with rfl | listed
      · exact .receiver
      · exact .methodArgument listed
    | structLit inits =>
      obtain ⟨init, listed, rfl⟩ := List.mem_map.1 member
      exact .fieldInitialiser listed
    | array elems => exact .element member
    | tuple elems => exact .component member
    | int | bool | char | str | unit | path | breakLoop | continueLoop => cases member
  · intro part
    cases part with
    | initialiser listed | statement listed | closedStatement listed =>
      exact List.mem_append_left _ (List.mem_filterMap.2 ⟨_, listed, rfl⟩)
    | tail => exact List.mem_append_right _ List.mem_cons_self
    | argument listed | methodArgument listed => exact List.mem_cons_of_mem _ listed
    | fieldInitialiser listed => exact List.mem_map_of_mem listed
    | element listed | component listed => exact listed
    | _ => simp [children]

/-- The place whose address an expression needs: what it borrows, or itself when it is a field or an
element. -/
def ExprKind.place? (expr : ExprId) : ExprKind → Option ExprId
  | borrow _ operand => some operand
  | field .. | index .. => some expr
  | _ => none

namespace Program

variable {program : Program} {body expr place : ExprId} {node : Node} {name : Name}

/-- An expression is part of another one. -/
def PartOf (program : Program) (whole part : ExprId) : Prop :=
  ∃ node, program.arena.get? whole = some node ∧ node.kind.HasPart part

theorem partOf_eq (program : Program) : program.PartOf = program.arena.Contains := by
  funext whole part
  simp only [PartOf, Arena.Contains, ExprKind.mem_children_iff]

/-! ### Places -/

/-- A field or an element lies in the place it is taken from, unless that is a reference: then it
lies where the reference points to. -/
def LiesIn (program : Program) (place base : ExprId) : Prop :=
  ∃ node baseNode, program.arena.get? place = some node ∧ node.kind.base? = some base ∧
    program.arena.get? base = some baseNode ∧
    ∀ pointee mutable, program.types.kind baseNode.ty ≠ .reference pointee mutable

/-- The place lies in a local, which is at the bottom of its chain of fields and elements. -/
def RootedIn (program : Program) (place : ExprId) (name : Name) : Prop :=
  ∃ root node, ReflTransGen program.LiesIn place root ∧ program.arena.get? root = some node ∧
    node.kind = .path [name]

/-- Somewhere in a body, the address of a place is needed that lies in the local. -/
def Addresses (program : Program) (body : ExprId) (name : Name) : Prop :=
  ∃ expr node place, ReflTransGen program.PartOf body expr ∧
    program.arena.get? expr = some node ∧ node.kind.place? expr = some place ∧
    program.RootedIn place name

theorem isReference_eq_false_iff {pool : TypePool} {ty : TypeId} : pool.isReference ty = false ↔
    ∀ pointee mutable, pool.kind ty ≠ .reference pointee mutable := by
  unfold TypePool.isReference TypePool.pointee?
  cases pool.kind ty <;> simp

theorem rootedIn_iff : program.RootedIn place name ↔
    (∃ node, program.arena.get? place = some node ∧ node.kind = .path [name]) ∨
      ∃ base, program.LiesIn place base ∧ program.RootedIn base name := by
  constructor
  · rintro ⟨root, node, chain, found, path⟩
    rcases chain.cases_head with rfl | ⟨base, lies, rest⟩
    · exact .inl ⟨node, found, path⟩
    · exact .inr ⟨base, lies, root, node, rest, found, path⟩
  · rintro (⟨node, found, path⟩ | ⟨base, lies, root, node, rest, found, path⟩)
    · exact ⟨place, node, .refl, found, path⟩
    · exact ⟨root, node, .head lies rest, found, path⟩

/-- A walk down a place and what it ends with, one line for each way that a round of it can go. No
line fits a place that is missing. -/
inductive FindsRoot (program : Program) : ExprId → Option Name → Prop
  | name {place : ExprId} {node : Node} {name : Name}
      (found : program.arena.get? place = some node) (path : node.kind = .path [name]) :
      FindsRoot program place (some name)
  | qualified {place : ExprId} {node : Node} {segments : List Name}
      (found : program.arena.get? place = some node) (path : node.kind = .path segments)
      (several : segments.length ≠ 1) : FindsRoot program place none
  | reference {place base : ExprId} {node baseNode : Node}
      (found : program.arena.get? place = some node) (taken : node.kind.base? = some base)
      (below : program.arena.get? base = some baseNode)
      (refers : program.types.isReference baseNode.ty = true) : FindsRoot program place none
  | base {place base : ExprId} {node baseNode : Node} {root : Option Name}
      (found : program.arena.get? place = some node) (taken : node.kind.base? = some base)
      (below : program.arena.get? base = some baseNode)
      (direct : program.types.isReference baseNode.ty = false)
      (rest : FindsRoot program base root) : FindsRoot program place root
  | value {place : ExprId} {node : Node} (found : program.arena.get? place = some node)
      (noPath : ∀ segments, node.kind ≠ .path segments) (noBase : node.kind.base? = none) :
      FindsRoot program place none

/-- A walk ends with the local that the place lies in, if it lies in one. -/
theorem FindsRoot.eq_some_iff {root : Option Name} (finds : program.FindsRoot place root) :
    root = some name ↔ program.RootedIn place name := by
  rw [rootedIn_iff]
  induction finds with
  | @name place node other found path =>
    constructor
    · rintro ⟨⟩
      exact .inl ⟨node, found, path⟩
    · rintro (⟨node', found', path'⟩ | ⟨base, ⟨node', _, found', taken, _⟩, _⟩)
      · cases found.symm.trans found'
        rw [path] at path'
        cases path'
        rfl
      · cases found.symm.trans found'
        rw [path] at taken
        cases taken
  | @qualified place node segments found path several =>
    refine ⟨nofun, ?_⟩
    rintro (⟨node', found', path'⟩ | ⟨base, ⟨node', _, found', taken, _⟩, _⟩)
    · cases found.symm.trans found'
      rw [path] at path'
      cases path'
      exact absurd rfl several
    · cases found.symm.trans found'
      rw [path] at taken
      cases taken
  | @reference place base node baseNode found taken below refers =>
    refine ⟨nofun, ?_⟩
    rintro (⟨node', found', path⟩ | ⟨base', ⟨node', baseNode', found', taken', below', direct⟩, _⟩)
    · cases found.symm.trans found'
      rw [path] at taken
      cases taken
    · cases found.symm.trans found'
      cases taken.symm.trans taken'
      cases below.symm.trans below'
      rw [isReference_eq_false_iff.2 direct] at refers
      cases refers
  | @base place base node baseNode root found taken below direct rest inductionHypothesis =>
    rw [inductionHypothesis, ← rootedIn_iff]
    constructor
    · exact fun rooted => .inr
        ⟨base, ⟨node, baseNode, found, taken, below, isReference_eq_false_iff.1 direct⟩, rooted⟩
    · rintro (⟨node', found', path⟩ | ⟨base', ⟨node', _, found', taken', _⟩, rooted⟩)
      · cases found.symm.trans found'
        rw [path] at taken
        cases taken
      · cases found.symm.trans found'
        cases taken.symm.trans taken'
        exact rooted
  | @value place node found noPath noBase =>
    refine ⟨nofun, ?_⟩
    rintro (⟨node', found', path⟩ | ⟨base, ⟨node', _, found', taken, _⟩, _⟩)
    · cases found.symm.trans found'
      exact absurd path (noPath _)
    · cases found.symm.trans found'
      rw [noBase] at taken
      cases taken

theorem FindsRoot.unique {root root' : Option Name} (finds : program.FindsRoot place root)
    (finds' : program.FindsRoot place root') : root = root' :=
  Option.ext fun _ => finds.eq_some_iff.trans finds'.eq_some_iff.symm

/-! ### Bodies without cycles -/

/-- All that a body reaches exists, and none of it contains itself. -/
structure Grounded (program : Program) (body : ExprId) : Prop where
  found : ∀ expr, ReflTransGen program.PartOf body expr → (program.arena.get? expr).isSome = true
  acyclic : ∀ expr, ReflTransGen program.PartOf body expr → ¬ TransGen program.PartOf expr expr

/-- How many expressions an expression reaches. -/
noncomputable def height (program : Program) (expr : ExprId) : Nat :=
  rank program.PartOf ExprId.mk program.arena.size expr

namespace Grounded

theorem below (grounded : program.Grounded body) (reached : ReflTransGen program.PartOf body expr) :
    program.Grounded expr :=
  ⟨fun other further => grounded.found other (reached.trans further),
    fun other further => grounded.acyclic other (reached.trans further)⟩

theorem part (grounded : program.Grounded body) (part : program.PartOf body expr) :
    program.Grounded expr :=
  grounded.below (.single part)

/-- A body is grounded when each expression comes after its parts. -/
theorem of_ordered (ordered : program.arena.Ordered) (inside : body.index < program.arena.size) :
    program.Grounded body := by
  refine ⟨fun expr below => ?_, fun expr _ => ?_⟩
  · rw [partOf_eq] at below
    exact ordered.isSome inside below
  · rw [partOf_eq]
    exact ordered.acyclic expr

/-- A part reaches less than the whole does. -/
theorem height_lt (grounded : program.Grounded body) (part : program.PartOf body expr) :
    program.height expr < program.height body := by
  have ⟨node, found, _⟩ := part
  exact rank_lt (grounded.acyclic body .refl) (Array.getElem?_eq_some_iff.1 found).1 part

theorem partOf_base {base : ExprId} (found : program.arena.get? expr = some node)
    (taken : node.kind.base? = some base) : program.PartOf expr base := by
  refine ⟨node, found, ?_⟩
  cases kind : node.kind with
  | field =>
    rw [kind] at taken
    cases taken
    exact .fieldBase
  | index =>
    rw [kind] at taken
    cases taken
    exact .indexBase
  | _ =>
    rw [kind] at taken
    cases taken

/-- A walk with steps enough comes to its end. -/
theorem findsRoot_rootWithin {fuel : Nat} (grounded : program.Grounded place)
    (enough : program.height place < fuel) :
    program.FindsRoot place (program.rootWithin fuel place) := by
  induction fuel generalizing place with
  | zero => cases enough
  | succ fuel inductionHypothesis =>
    obtain ⟨node, found⟩ := Option.isSome_iff_exists.1 (grounded.found place .refl)
    have deeper : ∀ base, node.kind.base? = some base → program.FindsRoot place (do
        let baseNode ← program.arena.get? base
        if program.types.isReference baseNode.ty then none else program.rootWithin fuel base) := by
      intro base taken
      have part := partOf_base found taken
      have less := grounded.height_lt part
      obtain ⟨baseNode, below⟩ := Option.isSome_iff_exists.1 (grounded.found base (.single part))
      rw [below, Option.bind_eq_bind, Option.bind_some]
      cases refers : program.types.isReference baseNode.ty with
      | true => exact .reference found taken below refers
      | false =>
        exact .base found taken below refers (inductionHypothesis (grounded.part part) (by omega))
    rw [rootWithin, found, Option.bind_eq_bind, Option.bind_some]
    obtain ⟨kind, span, ty⟩ := node
    cases kind with
    | path segments =>
      rcases segments with _ | ⟨name, _ | ⟨_, _⟩⟩
      · exact .qualified found rfl (by simp)
      · exact .name found rfl
      · exact .qualified found rfl (by simp)
    | field base name => exact deeper base rfl
    | index base position => exact deeper base rfl
    | _ => exact .value found (fun _ path => by cases path) rfl

theorem findsRoot (grounded : program.Grounded place) :
    program.FindsRoot place (program.placeRoot? place) :=
  grounded.findsRoot_rootWithin (Nat.lt_succ_of_le (rank_le place))

/-- The place that an expression needs the address of is the expression or a part of it. -/
theorem needed (grounded : program.Grounded expr) (found : program.arena.get? expr = some node)
    (needs : node.kind.place? expr = some place) : program.Grounded place := by
  cases kind : node.kind with
  | borrow mutable operand =>
    rw [kind] at needs
    cases needs
    exact grounded.part ⟨node, found, kind ▸ .borrow⟩
  | field | index =>
    rw [kind] at needs
    cases needs
    exact grounded
  | _ =>
    rw [kind] at needs
    cases needs

end Grounded

theorem takenBy?_eq (program : Program) (expr : ExprId) (kind : ExprKind) :
    program.takenBy? expr kind = (kind.place? expr).bind program.placeRoot? := by
  cases kind <;> rfl

/-- The marked search needs the names that a body addresses. -/
theorem Grounded.needs_iff (grounded : program.Grounded body) :
    program.Needs body name ↔ program.Addresses body name := by
  constructor
  · rintro ⟨expr, node, below, found, needs⟩
    rw [← partOf_eq] at below
    rw [takenBy?_eq, Option.bind_eq_some_iff] at needs
    obtain ⟨place, needed, root⟩ := needs
    exact ⟨expr, node, place, below, found, needed,
      ((grounded.below below).needed found needed).findsRoot.eq_some_iff.1 root⟩
  · rintro ⟨expr, node, place, below, found, needed, rooted⟩
    have root := ((grounded.below below).needed found needed).findsRoot.eq_some_iff.2 rooted
    rw [partOf_eq] at below
    exact ⟨expr, node, below, found, by rw [takenBy?_eq, needed, Option.bind_some, root]⟩

/-! ### The worklist -/

/-- What waits, the next one first, and the names that were found. -/
structure Worklist where
  waiting : List ExprId
  found : List Name

/-- One round of the search without marks: the expression that was listed last is taken off, the
root of the place it needs is noted, and its parts are listed in their order. -/
inductive Round (program : Program) : Worklist → Worklist → Prop
  | missing {expr : ExprId} {waiting : List ExprId} {names : List Name}
      (missing : program.arena.get? expr = none) :
      Round program ⟨expr :: waiting, names⟩ ⟨waiting, names⟩
  | place {expr place : ExprId} {waiting : List ExprId} {names : List Name} {node : Node}
      {root : Option Name} (found : program.arena.get? expr = some node)
      (needs : node.kind.place? expr = some place) (finds : program.FindsRoot place root) :
      Round program ⟨expr :: waiting, names⟩
        ⟨node.kind.children.reverse ++ waiting, root.elim names (List.insert · names)⟩
  | other {expr : ExprId} {waiting : List ExprId} {names : List Name} {node : Node}
      (found : program.arena.get? expr = some node) (needs : node.kind.place? expr = none) :
      Round program ⟨expr :: waiting, names⟩ ⟨node.kind.children.reverse ++ waiting, names⟩

theorem Round.unique {list next next' : Worklist} (round : program.Round list next)
    (round' : program.Round list next') : next = next' := by
  cases round with
  | missing missing =>
    cases round' with
    | missing => rfl
    | place found => cases missing.symm.trans found
    | other found => cases missing.symm.trans found
  | place found needs finds =>
    cases round' with
    | missing missing => cases missing.symm.trans found
    | place found' needs' finds' =>
      cases found.symm.trans found'
      cases needs.symm.trans needs'
      rw [finds.unique finds']
    | other found' needs' =>
      cases found.symm.trans found'
      cases needs.symm.trans needs'
  | other found needs =>
    cases round' with
    | missing missing => cases missing.symm.trans found
    | place found' needs' =>
      cases found.symm.trans found'
      cases needs.symm.trans needs'
    | other found' =>
      cases found.symm.trans found'
      rfl

variable {list last : Worklist}

/-- A run that stops is the only one from where it starts, so none goes on for ever. -/
theorem acc_of_run (run : ReflTransGen program.Round list last)
    (stuck : ∀ next, ¬ program.Round last next) :
    Acc (fun next list => program.Round list next) list := by
  induction run using ReflTransGen.head_induction_on with
  | refl => exact ⟨_, fun next round => absurd round (stuck next)⟩
  | head round _ inductionHypothesis =>
    exact ⟨_, fun next round' => round.unique round' ▸ inductionHypothesis⟩

/-- All runs that stop, stop at the same list. -/
theorem last_unique {last' : Worklist} (run : ReflTransGen program.Round list last)
    (stuck : ∀ next, ¬ program.Round last next) (run' : ReflTransGen program.Round list last')
    (stuck' : ∀ next, ¬ program.Round last' next) : last' = last := by
  have unique : Relator.RightUnique program.Round := fun _ _ _ round round' => round.unique round'
  rcases ReflTransGen.total_of_right_unique unique run run' with further | further
  · rcases further.cases_head with same | ⟨next, round, _⟩
    · exact same.symm
    · exact absurd round (stuck next)
  · rcases further.cases_head with same | ⟨next, round, _⟩
    · exact same
    · exact absurd round (stuck' next)

/-- A body addresses what it needs itself and what its parts address. -/
theorem addresses_iff (found : program.arena.get? expr = some node) :
    program.Addresses expr name ↔
      (∃ place, node.kind.place? expr = some place ∧ program.RootedIn place name) ∨
        ∃ part ∈ node.kind.children, program.Addresses part name := by
  constructor
  · rintro ⟨other, node', place, below, found', needs, rooted⟩
    rcases below.cases_head with rfl | ⟨part, ⟨node'', found'', role⟩, below⟩
    · cases found.symm.trans found'
      exact .inl ⟨place, needs, rooted⟩
    · cases found.symm.trans found''
      exact .inr ⟨part, ExprKind.mem_children_iff.2 role, other, node', place, below, found', needs,
        rooted⟩
  · rintro (⟨place, needs, rooted⟩ | ⟨part, member, other, node', place, below, rest⟩)
    · exact ⟨expr, node, place, .refl, found, needs, rooted⟩
    · exact ⟨other, node', place,
        .head ⟨node, found, ExprKind.mem_children_iff.1 member⟩ below, rest⟩

/-- What happens when an expression is next: one round, which adds the name it needs itself. -/
theorem Grounded.round (grounded : program.Grounded expr)
    (found : program.arena.get? expr = some node) (waiting : List ExprId) (names : List Name) :
    ∃ names', program.Round ⟨expr :: waiting, names⟩
        ⟨node.kind.children.reverse ++ waiting, names'⟩ ∧
      ∀ name, name ∈ names' ↔ name ∈ names ∨
        ∃ place, node.kind.place? expr = some place ∧ program.RootedIn place name := by
  cases needs : node.kind.place? expr with
  | none => exact ⟨names, .other found needs, fun name => by simp⟩
  | some place =>
    have finds := (grounded.needed found needs).findsRoot
    refine ⟨_, .place found needs finds, fun name => ?_⟩
    have rooted : program.placeRoot? place = some name ↔ program.RootedIn place name :=
      finds.eq_some_iff
    cases root : program.placeRoot? place with
    | none =>
      rw [root] at rooted
      simp [← rooted]
    | some other =>
      rw [root, Option.some_inj] at rooted
      simp only [Option.elim_some, List.mem_insert_iff, Option.some_inj, exists_eq_left', ← rooted]
      rw [or_comm, eq_comm]

/-- Some rounds take expressions off the list with all that is below them, and find the names that
these address. The induction is on how much the tallest of them reaches. -/
theorem clears {exprs : List ExprId} {bound : Nat}
    (grounded : ∀ expr ∈ exprs, program.Grounded expr)
    (low : ∀ expr ∈ exprs, program.height expr < bound) (waiting : List ExprId)
    (names : List Name) :
    ∃ names', ReflTransGen program.Round ⟨exprs ++ waiting, names⟩ ⟨waiting, names'⟩ ∧
      ∀ name, name ∈ names' ↔ name ∈ names ∨ ∃ expr ∈ exprs, program.Addresses expr name := by
  induction bound generalizing exprs waiting names with
  | zero =>
    have none : exprs = [] := List.eq_nil_iff_forall_not_mem.2 fun expr member =>
      absurd (low expr member) (Nat.not_lt_zero _)
    subst none
    exact ⟨names, .refl, fun name => by simp⟩
  | succ bound deeper =>
    induction exprs generalizing names with
    | nil => exact ⟨names, .refl, fun name => by simp⟩
    | cons expr rest inductionHypothesis =>
      have sound := grounded expr List.mem_cons_self
      obtain ⟨node, found⟩ := Option.isSome_iff_exists.1 (sound.found expr .refl)
      have parts : ∀ part ∈ node.kind.children.reverse, program.PartOf expr part :=
        fun part member => ⟨node, found, ExprKind.mem_children_iff.1 (List.mem_reverse.1 member)⟩
      obtain ⟨own, first, noted⟩ := sound.round found (rest ++ waiting) names
      obtain ⟨below, down, collected⟩ := deeper (fun part member => sound.part (parts part member))
        (fun part member => Nat.lt_of_lt_of_le (sound.height_lt (parts part member))
          (Nat.le_of_lt_succ (low expr List.mem_cons_self))) (rest ++ waiting) own
      obtain ⟨all, last, complete⟩ := inductionHypothesis
        (fun other member => grounded other (List.mem_cons_of_mem _ member))
        (fun other member => low other (List.mem_cons_of_mem _ member)) below
      refine ⟨all, .head first (down.trans last), fun name => ?_⟩
      rw [complete, collected, noted, List.exists_mem_cons_iff, addresses_iff found]
      simp only [List.mem_reverse, or_assoc]

/-- Where the body is grounded, the search finds just the names that it addresses. So does the
worklist: no run of it goes on for ever, and wherever it ends, nothing waits and these names were
found. -/
theorem addressTaken_exact (grounded : program.Grounded body) :
    (∀ name, name ∈ program.addressTaken body ↔ program.Addresses body name) ∧
    Acc (fun next list => program.Round list next) ⟨[body], []⟩ ∧
    ∀ final, ReflTransGen program.Round ⟨[body], []⟩ final →
      (∀ next, ¬ program.Round final next) →
        final.waiting = [] ∧ ∀ name, name ∈ final.found ↔ program.Addresses body name := by
  have only : ∀ expr ∈ [body], expr = body := fun expr => List.mem_singleton.1
  obtain ⟨names, run, complete⟩ := clears (fun expr member => (only expr member).symm ▸ grounded)
    (fun expr member => Nat.lt_succ_of_le (congrArg program.height (only expr member)).le) [] []
  have stuck : ∀ next, ¬ program.Round ⟨[], names⟩ next := fun next round => nomatch round
  refine ⟨fun name => mem_addressTaken_iff.trans grounded.needs_iff, acc_of_run run stuck,
    fun final reached ends => ?_⟩
  obtain rfl := last_unique run stuck reached ends
  exact ⟨rfl, fun name => by simpa using complete name⟩

/-- The sum `row[at] + near[at]`, added to itself. The array `row` is a local; `near` is a reference
to an array. Both the sum and `at` are parts twice. -/
def doubled : Program where
  types := ((TypePool.initial.intern (.array .i32 2)).2.intern (.reference ⟨11⟩ false)).2
  scopes := .initial
  arena := ⟨#[⟨.path [⟨1⟩], .nowhere, ⟨11⟩⟩, ⟨.path [⟨2⟩], .nowhere, ⟨12⟩⟩,
    ⟨.path [⟨3⟩], .nowhere, .usize⟩, ⟨.index ⟨0⟩ ⟨2⟩, .nowhere, .i32⟩,
    ⟨.index ⟨1⟩ ⟨2⟩, .nowhere, .i32⟩, ⟨.binary .add ⟨3⟩ ⟨4⟩, .nowhere, .i32⟩,
    ⟨.binary .add ⟨5⟩ ⟨5⟩, .nowhere, .i32⟩]⟩
  items := []

theorem doubled_exact : doubled.Grounded ⟨6⟩ ∧ (∀ name, doubled.Addresses ⟨6⟩ name ↔ name = ⟨1⟩) ∧
    Acc (fun next list => doubled.Round list next) ⟨[⟨6⟩], []⟩ ∧
    ∀ final, ReflTransGen doubled.Round ⟨[⟨6⟩], []⟩ final → (∀ next, ¬ doubled.Round final next) →
      final.waiting = [] ∧ ∀ name, name ∈ final.found ↔ name = ⟨1⟩ := by
  have grounded : doubled.Grounded ⟨6⟩ := .of_ordered (by decide) (by decide)
  obtain ⟨marked, finite, ends⟩ := addressTaken_exact grounded
  have row : doubled.addressTaken ⟨6⟩ = [⟨1⟩] := by decide
  have addressed : ∀ name, doubled.Addresses ⟨6⟩ name ↔ name = ⟨1⟩ := by
    intro name
    rw [← marked, row, List.mem_singleton]
  refine ⟨grounded, addressed, finite, fun final run stuck => ?_⟩
  obtain ⟨empty, exact⟩ := ends final run stuck
  exact ⟨empty, fun name => (exact name).trans (addressed name)⟩

end Program

end TreeLowering.Tree
