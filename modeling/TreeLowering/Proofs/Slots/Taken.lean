/-
This file proves that the search for names whose address is needed finds these and no others. At
any time, the parts of the expressions that were visited are visited themselves or wait, and the
names that those expressions need are found. Each step either drops an expression that waits, or
visits one and adds its parts; since no expression is visited twice, the bound on the steps is never
reached.
-/

import TreeLowering.Proofs.Pair.Expr
import TreeLowering.Proofs.Rewrite.Tables

namespace TreeLowering.Tree

open Relation

/-! ### The work that is left -/

/-- How many parts the expressions have that were not visited yet. -/
def openParts : List Bool → List Node → Nat
  | visited :: others, node :: rest =>
    (if visited then 0 else node.kind.children.length) + openParts others rest
  | _, _ => 0

theorem openParts_set {visited : List Bool} {nodes : List Node} {index : Nat} {node : Node}
    (unvisited : visited[index]? = some false) (found : nodes[index]? = some node) :
    openParts (visited.set index true) nodes + node.kind.children.length =
      openParts visited nodes := by
  induction visited generalizing nodes index with
  | nil => cases unvisited
  | cons first others inductionHypothesis =>
    cases nodes with
    | nil => cases found
    | cons head rest =>
      cases index with
      | zero =>
        cases unvisited
        cases found
        simp only [List.set_cons_zero, openParts, if_true, Bool.false_eq_true, if_false]
        omega
      | succ index =>
        have rest' := inductionHypothesis (by simpa using unvisited) (by simpa using found)
        simp only [List.set_cons_succ, openParts]
        omega

/-- All parts together are what the bound on the steps is made of. -/
theorem openParts_replicate (nodes : List Node) (start : Nat) :
    start + openParts (List.replicate nodes.length false) nodes =
      nodes.foldl (fun total node => total + node.kind.children.length) start := by
  induction nodes generalizing start with
  | nil => rfl
  | cons node rest inductionHypothesis =>
    rw [List.foldl_cons, ← inductionHypothesis, List.length_cons, List.replicate_succ]
    simp only [openParts, Bool.false_eq_true, if_false]
    omega

namespace Program

variable {program : Program} {body : ExprId} {fuel : Nat} {waiting : List ExprId}
  {search : TakenSearch}

/-! ### The frontier of a search -/

/-- The search was there, or there is nothing to see. -/
def TakenSearch.Visited (search : TakenSearch) (expr : ExprId) : Prop :=
  search.visited.getD expr.index true = true

/-- What holds between any two steps of a search. -/
structure Frontier (program : Program) (body : ExprId) (waiting : List ExprId)
    (search : TakenSearch) : Prop where
  size : search.visited.size = program.arena.size
  start : body ∈ waiting ∨ search.Visited body
  closed : ∀ expr node, search.Visited expr → program.arena.get? expr = some node →
    ∀ part ∈ node.kind.children, part ∈ waiting ∨ search.Visited part
  named : ∀ expr node name, search.Visited expr → program.arena.get? expr = some node →
    program.takenBy? expr node.kind = some name → name ∈ search.taken

/-- How many steps are left at most. -/
def stepsLeft (program : Program) (waiting : List ExprId) (search : TakenSearch) : Nat :=
  waiting.length + openParts search.visited.toList program.arena.nodes.toList

/-- Dropping an expression that waits takes one step. -/
theorem stepsLeft_drop {expr : ExprId}
    (enough : program.stepsLeft (expr :: waiting) search < fuel + 1) :
    program.stepsLeft waiting search < fuel := by
  simp only [stepsLeft, List.length_cons] at enough ⊢
  omega

/-- A visit takes one step, and leaves the parts to be visited. -/
theorem stepsLeft_visit {expr : ExprId} {node : Node} {taken : List Name}
    (unvisited : ¬ search.visited.getD expr.index true = true)
    (found : program.arena.get? expr = some node) :
    program.stepsLeft (node.kind.children ++ waiting)
      ⟨search.visited.setIfInBounds expr.index true, taken⟩ + 1 ≤
        program.stepsLeft (expr :: waiting) search := by
  have fresh : search.visited.toList[expr.index]? = some false := by
    rw [Array.getD_eq_getD_getElem?] at unvisited
    rw [Array.getElem?_toList]
    cases mark : search.visited[expr.index]? with
    | none =>
      rw [mark] at unvisited
      exact absurd rfl unvisited
    | some marked =>
      rw [mark] at unvisited
      exact congrArg some (Bool.eq_false_iff.2 unvisited)
  have fewer := openParts_set fresh ((Array.getElem?_toList ..).trans found)
  simp only [stepsLeft, List.length_cons, List.length_append, Array.toList_setIfInBounds] at fewer ⊢
  omega

namespace Frontier

/-- An expression that was visited need not wait. -/
theorem drop {expr : ExprId} (frontier : Frontier program body (expr :: waiting) search)
    (visited : search.Visited expr) : Frontier program body waiting search := by
  have settled : ∀ {other}, other ∈ expr :: waiting ∨ search.Visited other →
      other ∈ waiting ∨ search.Visited other := by
    rintro other (waits | old)
    · rcases List.mem_cons.1 waits with rfl | waits
      · exact .inr visited
      · exact .inl waits
    · exact .inr old
  exact ⟨frontier.size, settled frontier.start,
    fun other node old found part member => settled (frontier.closed other node old found part member),
    frontier.named⟩

/-- A visited expression has its parts wait, and its name is found. -/
theorem visit {expr : ExprId} {node : Node} {taken : List Name}
    (frontier : Frontier program body (expr :: waiting) search)
    (found : program.arena.get? expr = some node) (more : search.taken ⊆ taken)
    (named : ∀ name ∈ program.takenBy? expr node.kind, name ∈ taken) :
    Frontier program body (node.kind.children ++ waiting)
      ⟨search.visited.setIfInBounds expr.index true, taken⟩ := by
  have inside : expr.index < search.visited.size := by
    rw [frontier.size]
    exact (Array.getElem?_eq_some_iff.1 found).1
  have visited : ∀ other, TakenSearch.Visited
      ⟨search.visited.setIfInBounds expr.index true, taken⟩ other ↔
        other = expr ∨ search.Visited other := by
    intro other
    unfold TakenSearch.Visited
    rw [Array.getD_eq_getD_getElem?, Array.getD_eq_getD_getElem?, Array.getElem?_setIfInBounds]
    by_cases same : expr.index = other.index
    · rw [if_pos same, if_pos (by omega)]
      have equal : other = expr := by
        obtain ⟨index⟩ := expr
        obtain ⟨index'⟩ := other
        exact congrArg ExprId.mk same.symm
      simp [equal]
    · rw [if_neg same]
      have differ : other ≠ expr := fun equal => same (by rw [equal])
      simp [differ]
  have settled : ∀ {other}, other ∈ expr :: waiting ∨ search.Visited other →
      other ∈ node.kind.children ++ waiting ∨ TakenSearch.Visited
        ⟨search.visited.setIfInBounds expr.index true, taken⟩ other := by
    rintro other (waits | old)
    · rcases List.mem_cons.1 waits with rfl | waits
      · exact .inr ((visited _).2 (.inl rfl))
      · exact .inl (List.mem_append_right _ waits)
    · exact .inr ((visited _).2 (.inr old))
  refine ⟨by rw [Array.size_setIfInBounds, frontier.size], settled frontier.start, ?_, ?_⟩
  · intro other node' now found' part member
    rcases (visited other).1 now with rfl | old
    · cases found.symm.trans found'
      exact .inl (List.mem_append_left _ member)
    · exact settled (frontier.closed other node' old found' part member)
  · intro other node' name now found' needs
    rcases (visited other).1 now with rfl | old
    · cases found.symm.trans found'
      exact named name needs
    · exact more (frontier.named other node' name old found' needs)

/-- A search that has steps enough ends with nothing waiting. -/
theorem run (frontier : Frontier program body waiting search)
    (enough : program.stepsLeft waiting search < fuel) :
    Frontier program body [] (program.searchTaken fuel waiting search) := by
  fun_induction searchTaken program fuel waiting search with
  | case1 => omega
  | case2 => exact frontier
  | case3 fuel expr waiting search visited inductionHypothesis =>
    exact inductionHypothesis (frontier.drop visited) (stepsLeft_drop enough)
  | case4 fuel expr waiting search unvisited missing inductionHypothesis =>
    -- where there is no expression, the search counts it as visited
    have outside : search.visited.size ≤ expr.index := by
      rw [frontier.size]
      exact Array.getElem?_eq_none_iff.1 missing
    rw [Array.getD_eq_getD_getElem?, Array.getElem?_eq_none outside] at unvisited
    exact absurd rfl unvisited
  | case5 fuel expr waiting search unvisited node found visited taken inductionHypothesis =>
    refine inductionHypothesis (frontier.visit found ?_ fun name needs => ?_) ?_
    · intro name member
      simp only [taken]
      split
      · exact List.mem_insert_of_mem member
      · exact member
    · simp only [taken, Option.mem_def.1 needs]
      exact List.mem_insert_self
    · exact Nat.lt_of_succ_lt_succ ((stepsLeft_visit unvisited found).trans_lt enough)

/-- Once nothing waits, everything below the body was visited. -/
theorem visited_below (frontier : Frontier program body [] search) {expr : ExprId}
    (below : ReflTransGen program.arena.Contains body expr) : search.Visited expr := by
  induction below with
  | refl => exact frontier.start.resolve_left List.not_mem_nil
  | tail _ contains inductionHypothesis =>
    obtain ⟨node, found, member⟩ := contains
    exact (frontier.closed _ node inductionHypothesis found _ member).resolve_left
      List.not_mem_nil

end Frontier

/-- The bound on the steps is enough for a whole search. -/
theorem stepsLeft_start (program : Program) (body : ExprId) :
    program.stepsLeft [body] ⟨Array.replicate program.arena.size false, []⟩ <
      program.searchBound := by
  have total := openParts_replicate program.arena.nodes.toList 2
  rw [Array.foldl_toList] at total
  simp only [stepsLeft, searchBound, ← total, Array.toList_replicate, List.length_cons,
    List.length_nil, Arena.size, Array.length_toList]
  omega

/-! ### Names that are taken -/

/-- Every name that an expression of the body needs the address of is found. -/
theorem mem_addressTaken {expr : ExprId} {node : Node} {name : Name}
    (below : ReflTransGen program.arena.Contains body expr)
    (found : program.arena.get? expr = some node)
    (needs : program.takenBy? expr node.kind = some name) : name ∈ program.addressTaken body := by
  let start : TakenSearch := ⟨Array.replicate program.arena.size false, []⟩
  have unvisited : ∀ expr, program.arena.get? expr ≠ none → ¬ start.Visited expr := by
    intro expr present visited
    have inside : expr.index < program.arena.size := by
      by_contra outside
      exact present (Array.getElem?_eq_none (Nat.not_lt.1 outside))
    rw [TakenSearch.Visited, Array.getD_eq_getD_getElem?, Array.getElem?_replicate,
      if_pos inside] at visited
    cases visited
  have frontier : Frontier program body [body] start := by
    refine ⟨Array.size_replicate, .inl List.mem_cons_self, ?_, ?_⟩
    · exact fun other node visited found => absurd visited (unvisited other (by simp [found]))
    · exact fun other node name visited found => absurd visited (unvisited other (by simp [found]))
  have final := frontier.run (stepsLeft_start program body)
  exact final.named expr node name (final.visited_below below) found needs

/-- Some expression of the body needs the address of the name. -/
def Needs (program : Program) (body : ExprId) (name : Name) : Prop :=
  ∃ expr node, ReflTransGen program.arena.Contains body expr ∧
    program.arena.get? expr = some node ∧ program.takenBy? expr node.kind = some name

/-- A search that stays below the body finds no other names. -/
theorem needs_of_mem_searchTaken {name : Name}
    (below : ∀ expr ∈ waiting, ReflTransGen program.arena.Contains body expr)
    (known : ∀ name ∈ search.taken, program.Needs body name)
    (member : name ∈ (program.searchTaken fuel waiting search).taken) : program.Needs body name := by
  fun_induction searchTaken program fuel waiting search with
  | case1 => exact known name member
  | case2 => exact known name member
  | case3 fuel expr waiting search visited inductionHypothesis =>
    exact inductionHypothesis (fun part waits => below part (List.mem_cons_of_mem _ waits)) known
      member
  | case4 fuel expr waiting search unvisited missing inductionHypothesis =>
    exact inductionHypothesis (fun part waits => below part (List.mem_cons_of_mem _ waits)) known
      member
  | case5 fuel expr waiting search unvisited node found visited taken inductionHypothesis =>
    have lower := below expr List.mem_cons_self
    refine inductionHypothesis (fun part waits => ?_) (fun other listed => ?_) member
    · rcases List.mem_append.1 waits with child | waits
      · exact lower.tail ⟨node, found, child⟩
      · exact below part (List.mem_cons_of_mem _ waits)
    · change other ∈ taken at listed
      simp only [taken] at listed
      cases needs : program.takenBy? expr node.kind with
      | none =>
        rw [needs] at listed
        exact known other listed
      | some needed =>
        rw [needs] at listed
        rcases List.mem_insert_iff.1 listed with rfl | old
        · exact ⟨expr, node, lower, found, needs⟩
        · exact known other old

/-- The search finds the names that are needed, and no others. -/
theorem mem_addressTaken_iff {name : Name} :
    name ∈ program.addressTaken body ↔ program.Needs body name := by
  refine ⟨needs_of_mem_searchTaken (fun expr member => ?_) (fun _ => nofun),
    fun ⟨expr, node, below, found, needs⟩ => mem_addressTaken below found needs⟩
  obtain rfl := List.mem_singleton.1 member
  exact .refl

/-- A type that no reference is to be peeled from is no reference. -/
theorem isReference_of_peelReferences {pool : TypePool} {ty : TypeId}
    (none : (pool.peelReferences ty).2 = 0) : pool.isReference ty = false := by
  unfold TypePool.isReference
  cases found : pool.pointee? ty with
  | none => rfl
  | some pair =>
    have inside : ty.index < pool.size := by
      refine TypePool.inside_of_kind fun open_ => ?_
      rw [TypePool.pointee?, open_] at found
      cases found
    obtain ⟨size, count⟩ := Nat.exists_eq_succ_of_ne_zero (Nat.ne_of_gt (Nat.zero_lt_of_lt inside))
    rw [TypePool.peelReferences, count, TypePool.stripReferences, found] at none
    cases none

variable {expr operand base : ExprId} {node : Node} {name : Name} {span : Span} {ty : TypeId}

/-- A local that is borrowed is taken. -/
theorem taken_of_borrow (below : ReflTransGen program.arena.Contains body expr) {mutable : Bool}
    (found : program.arena.get? expr = some node) (borrow : node.kind = .borrow mutable operand)
    (path : program.arena.get? operand = some ⟨.path [name], span, ty⟩) :
    name ∈ program.addressTaken body := by
  refine mem_addressTaken below found ?_
  rw [borrow, takenBy?, placeRoot?, rootWithin, path]
  rfl

/-- A local that a field or an element is taken from is taken, unless it is a reference. -/
theorem taken_of_base (below : ReflTransGen program.arena.Contains body expr)
    (found : program.arena.get? expr = some node) (shape : node.kind.base? = some base)
    (path : program.arena.get? base = some ⟨.path [name], span, ty⟩)
    (direct : (program.types.peelReferences ty).2 = 0) : name ∈ program.addressTaken body := by
  have plain := isReference_of_peelReferences direct
  obtain ⟨size, count⟩ := Nat.exists_eq_succ_of_ne_zero
    (Nat.ne_of_gt (Nat.zero_lt_of_lt (Array.getElem?_eq_some_iff.1 found).1))
  obtain ⟨kind, nodeSpan, nodeTy⟩ := node
  have root : program.placeRoot? expr = some name := by
    rw [placeRoot?, Arena.size, count, rootWithin, found]
    cases kind with
    | field base field =>
      cases shape
      simp only [path, Option.bind_eq_bind, Option.bind_some, plain, Bool.false_eq_true, if_false,
        rootWithin]
    | index base position =>
      cases shape
      simp only [path, Option.bind_eq_bind, Option.bind_some, plain, Bool.false_eq_true, if_false,
        rootWithin]
    | _ => cases shape
  refine mem_addressTaken below found ?_
  cases kind with
  | field base field => exact root
  | index base position => exact root
  | _ => cases shape

end Program

/-! ### Programs with one body in common -/

namespace Program

variable {program program' : Program} {body : ExprId}

/-- Both programs have the same types and, up to the order of initialisers, the same expressions below
the body. -/
structure Reorders (program program' : Program) (body : ExprId) : Prop where
  types : program'.types = program.types
  stored : ∀ expr, ReflTransGen program.arena.Contains body expr →
    Reordered program.types (program.arena.get? expr) (program'.arena.get? expr)
  acyclic : ∀ expr, ¬ TransGen program.arena.Contains expr expr
  acyclic' : ∀ expr, ¬ TransGen program'.arena.Contains expr expr

namespace Reorders

variable (reorders : Reorders program program' body)

include reorders

theorem found {expr : ExprId} {node : Node} (below : ReflTransGen program.arena.Contains body expr)
    (found : program.arena.get? expr = some node) :
    ∃ node', program'.arena.get? expr = some node' ∧ node'.ty = node.ty ∧
      ∀ part, part ∈ node'.kind.children ↔ part ∈ node.kind.children := by
  have stored := reorders.stored expr below
  cases found' : program'.arena.get? expr with
  | none =>
    rw [found, found'] at stored
    cases stored
  | some node' =>
    refine ⟨node', rfl, ?_, fun part => stored.children found found'⟩
    rcases stored.same_or_structLit with same | ⟨_, _, _, _, first, second, _⟩
    · rw [found, found'] at same
      cases same
      rfl
    · cases found.symm.trans first
      cases found'.symm.trans second
      rfl

theorem missing {expr : ExprId} (below : ReflTransGen program.arena.Contains body expr)
    (missing : program.arena.get? expr = none) : program'.arena.get? expr = none := by
  rcases (reorders.stored expr below).same_or_structLit with same | ⟨_, _, _, _, first, _⟩
  · exact same.trans missing
  · cases missing.symm.trans first

/-- The same expressions are below the body. -/
theorem below_iff {expr : ExprId} : ReflTransGen program'.arena.Contains body expr ↔
    ReflTransGen program.arena.Contains body expr := by
  constructor <;> intro below
  · induction below with
    | refl => exact .refl
    | @tail middle last _ contains inductionHypothesis =>
      obtain ⟨node', stored', member⟩ := contains
      cases stored : program.arena.get? middle with
      | none => cases (reorders.missing inductionHypothesis stored).symm.trans stored'
      | some node =>
        obtain ⟨other, found', _, children⟩ := reorders.found inductionHypothesis stored
        cases stored'.symm.trans found'
        exact inductionHypothesis.tail ⟨node, stored, (children last).1 member⟩
  · induction below with
    | refl => exact .refl
    | @tail middle last below contains inductionHypothesis =>
      obtain ⟨node, stored, member⟩ := contains
      obtain ⟨node', found', _, children⟩ := reorders.found below stored
      exact inductionHypothesis.tail ⟨node', found', (children last).2 member⟩

/-- What is stored below the body has one type in both programs. -/
theorem map_ty {expr : ExprId} (below : ReflTransGen program.arena.Contains body expr) :
    (program'.arena.get? expr).map Node.ty = (program.arena.get? expr).map Node.ty := by
  cases stored : program.arena.get? expr with
  | none => rw [reorders.missing below stored]
  | some node =>
    obtain ⟨node', stored', sameTy, _⟩ := reorders.found below stored
    rw [stored', Option.map_some, Option.map_some, sameTy]

/-- A part is lower than what it is a part of, in the other program too. -/
theorem rank_part {expr base : ExprId} {node : Node}
    (below : ReflTransGen program.arena.Contains body expr)
    (found : program.arena.get? expr = some node) (member : base ∈ node.kind.children) :
    rank program'.arena.Contains ExprId.mk program'.arena.size base <
      rank program'.arena.Contains ExprId.mk program'.arena.size expr := by
  obtain ⟨node', found', _, children⟩ := reorders.found below found
  exact rank_lt (reorders.acyclic' _) (Array.getElem?_eq_some_iff.1 found').1
    ⟨node', found', (children base).2 member⟩

/-- A walk to the root goes on from a base alike in both programs. -/
theorem rootOfBase {fuel fuel' : Nat} {base : ExprId}
    (below : ReflTransGen program.arena.Contains body base)
    (root : program'.rootWithin fuel' base = program.rootWithin fuel base) :
    (do
      let baseNode ← program'.arena.get? base
      if program'.types.isReference baseNode.ty then none else program'.rootWithin fuel' base) =
    (do
      let baseNode ← program.arena.get? base
      if program.types.isReference baseNode.ty then none else program.rootWithin fuel base) := by
  have sameTy := reorders.map_ty below
  rw [root, reorders.types]
  generalize program.arena.get? base = stored at sameTy ⊢
  generalize program'.arena.get? base = stored' at sameTy ⊢
  cases stored with
  | none =>
    obtain rfl := Option.map_eq_none_iff.1 sameTy
    rfl
  | some node =>
    obtain ⟨node', rfl, agrees⟩ := Option.map_eq_some_iff.1 sameTy
    simp only [Option.bind_eq_bind, Option.bind_some, agrees]

/-- A walk with steps enough finds the same root in both programs. -/
theorem rootWithin {fuel fuel' : Nat} {expr : ExprId}
    (below : ReflTransGen program.arena.Contains body expr)
    (enough : rank program.arena.Contains ExprId.mk program.arena.size expr < fuel)
    (enough' : rank program'.arena.Contains ExprId.mk program'.arena.size expr < fuel') :
    program'.rootWithin fuel' expr = program.rootWithin fuel expr := by
  induction fuel generalizing fuel' expr with
  | zero => cases enough
  | succ fuel inductionHypothesis =>
    obtain ⟨fuel', rfl⟩ := Nat.exists_eq_succ_of_ne_zero (Nat.ne_of_gt (Nat.zero_lt_of_lt enough'))
    unfold Program.rootWithin
    rcases (reorders.stored expr below).same_or_structLit with
      same | ⟨_, _, _, _, first, second, _⟩
    · rw [same]
      cases found : program.arena.get? expr with
      | none => rfl
      | some node =>
        -- a base is further down, so there are steps left for it in both programs
        have deeper : ∀ base ∈ node.kind.children, (do
              let baseNode ← program'.arena.get? base
              if program'.types.isReference baseNode.ty then none
              else program'.rootWithin fuel' base) =
            (do
              let baseNode ← program.arena.get? base
              if program.types.isReference baseNode.ty then none
              else program.rootWithin fuel base) := by
          intro base member
          have lower := below.tail ⟨node, found, member⟩
          have less : rank program.arena.Contains ExprId.mk program.arena.size base <
              rank program.arena.Contains ExprId.mk program.arena.size expr :=
            rank_lt (reorders.acyclic _) (Array.getElem?_eq_some_iff.1 found).1
              ⟨node, found, member⟩
          have less' := reorders.rank_part below found member
          exact reorders.rootOfBase lower (inductionHypothesis lower (by omega) (by omega))
        obtain ⟨kind, span, ty⟩ := node
        cases kind with
        | field base name => exact deeper base List.mem_cons_self
        | index base position => exact deeper base List.mem_cons_self
        | path segments => rcases segments with _ | ⟨name, _ | ⟨_, _⟩⟩ <;> rfl
        | _ => rfl
    · rw [first, second]
      rfl

theorem takenBy? {expr : ExprId} {node node' : Node}
    (below : ReflTransGen program.arena.Contains body expr)
    (found : program.arena.get? expr = some node) (found' : program'.arena.get? expr = some node') :
    program'.takenBy? expr node'.kind = program.takenBy? expr node.kind := by
  have root : ∀ {part}, ReflTransGen program.arena.Contains body part →
      program'.placeRoot? part = program.placeRoot? part := fun lower =>
    reorders.rootWithin lower (Nat.lt_succ_of_le (rank_le _)) (Nat.lt_succ_of_le (rank_le _))
  rcases (reorders.stored expr below).same_or_structLit with same | ⟨_, _, _, _, first, second, _⟩
  · rw [found, found'] at same
    cases same
    obtain ⟨kind, span, ty⟩ := node
    cases kind with
    | borrow mutable operand => exact root (below.tail ⟨_, found, List.mem_cons_self⟩)
    | field base name => exact root below
    | index base position => exact root below
    | _ => rfl
  · cases found.symm.trans first
    cases found'.symm.trans second
    rfl

/-- The names whose address is needed do not depend on the order of initialisers. -/
theorem mem_addressTaken {name : Name} :
    name ∈ program'.addressTaken body ↔ name ∈ program.addressTaken body := by
  rw [mem_addressTaken_iff, mem_addressTaken_iff]
  constructor
  · rintro ⟨expr, node', below', found', needs⟩
    have below := reorders.below_iff.1 below'
    cases found : program.arena.get? expr with
    | none => cases (reorders.missing below found).symm.trans found'
    | some node => exact ⟨expr, node, below, found, (reorders.takenBy? below found found').symm.trans needs⟩
  · rintro ⟨expr, node, below, found, needs⟩
    obtain ⟨node', found', _⟩ := reorders.found below found
    exact ⟨expr, node', reorders.below_iff.2 below, found',
      (reorders.takenBy? below found found').trans needs⟩

end Reorders

/-- Both programs have the same types and the same expressions below the body. -/
structure SameBody (program program' : Program) (body : ExprId) : Prop where
  types : program'.types = program.types
  nodes : ∀ expr, ReflTransGen program.arena.Contains body expr →
    program'.arena.get? expr = program.arena.get? expr
  acyclic : ∀ expr, ¬ TransGen program.arena.Contains expr expr
  acyclic' : ∀ expr, ¬ TransGen program'.arena.Contains expr expr

namespace SameBody

variable (same : SameBody program program' body)

include same

theorem reorders : Reorders program program' body := by
  refine ⟨same.types, fun expr below => ?_, same.acyclic, same.acyclic'⟩
  rw [same.nodes expr below]
  exact .same _

theorem takenBy? {expr : ExprId} {node : Node}
    (below : ReflTransGen program.arena.Contains body expr)
    (found : program.arena.get? expr = some node) :
    program'.takenBy? expr node.kind = program.takenBy? expr node.kind :=
  same.reorders.takenBy? below found ((same.nodes expr below).trans found)

/-- An expression of the body that both searches visit is visited in both. -/
theorem visited_set {visited visited' : Array Bool} {expr : ExprId} {node : Node}
    (size : visited.size = program.arena.size) (size' : visited'.size = program'.arena.size)
    (below : ReflTransGen program.arena.Contains body expr)
    (found : program.arena.get? expr = some node)
    (agree : ∀ part, ReflTransGen program.arena.Contains body part →
      visited'.getD part.index true = visited.getD part.index true)
    (part : ExprId) (lower : ReflTransGen program.arena.Contains body part) :
    (visited'.setIfInBounds expr.index true).getD part.index true =
      (visited.setIfInBounds expr.index true).getD part.index true := by
  have inside := (Array.getElem?_eq_some_iff.1 found).1
  have inside' := (Array.getElem?_eq_some_iff.1 ((same.nodes expr below).trans found)).1
  have marked := agree part lower
  rw [Array.getD_eq_getD_getElem?, Array.getD_eq_getD_getElem?] at marked ⊢
  rw [Array.getElem?_setIfInBounds, Array.getElem?_setIfInBounds, size, size']
  split
  · next here => rw [if_pos (here ▸ inside'), if_pos (here ▸ inside)]
  · exact marked

/-- Two searches that have visited the same expressions of the body go on alike. -/
theorem searchTaken {fuel fuel' : Nat} {waiting : List ExprId} {search search' : TakenSearch}
    (below : ∀ expr ∈ waiting, ReflTransGen program.arena.Contains body expr)
    (enough : program.stepsLeft waiting search < fuel)
    (enough' : program'.stepsLeft waiting search' < fuel')
    (size : search.visited.size = program.arena.size)
    (size' : search'.visited.size = program'.arena.size)
    (visited : ∀ expr, ReflTransGen program.arena.Contains body expr →
      search'.visited.getD expr.index true = search.visited.getD expr.index true)
    (taken : search'.taken = search.taken) :
    (program'.searchTaken fuel' waiting search').taken =
      (program.searchTaken fuel waiting search).taken := by
  induction fuel generalizing fuel' waiting search search' with
  | zero => cases enough
  | succ fuel inductionHypothesis =>
    obtain ⟨fuel', rfl⟩ := Nat.exists_eq_succ_of_ne_zero (Nat.ne_of_gt (Nat.zero_lt_of_lt enough'))
    cases waiting with
    | nil => exact taken
    | cons expr rest =>
      have lower := below expr List.mem_cons_self
      have below' : ∀ part ∈ rest, ReflTransGen program.arena.Contains body part :=
        fun part member => below part (List.mem_cons_of_mem _ member)
      have dropped : (program'.searchTaken fuel' rest search').taken =
          (program.searchTaken fuel rest search).taken :=
        inductionHypothesis below' (stepsLeft_drop enough) (stepsLeft_drop enough') size size'
          visited taken
      unfold Program.searchTaken
      rw [visited expr lower, same.nodes expr lower]
      split
      · exact dropped
      next unvisited =>
      cases found : program.arena.get? expr with
      | none => exact dropped
      | some node =>
        have found' := (same.nodes expr lower).trans found
        have unvisited' : ¬ search'.visited.getD expr.index true = true := by
          rwa [visited expr lower]
        dsimp only
        rw [same.takenBy? lower found, taken]
        refine inductionHypothesis (fun part member => ?_)
          (Nat.lt_of_succ_lt_succ ((stepsLeft_visit unvisited found).trans_lt enough))
          (Nat.lt_of_succ_lt_succ ((stepsLeft_visit unvisited' found').trans_lt enough'))
          (by rw [Array.size_setIfInBounds, size]) (by rw [Array.size_setIfInBounds, size'])
          (same.visited_set size size' lower found visited) rfl
        rcases List.mem_append.1 member with child | waits
        · exact lower.tail ⟨node, found, child⟩
        · exact below' part waits

/-- The names whose address a body needs depend on the body only. -/
theorem addressTaken (found : ∀ expr, ReflTransGen program.arena.Contains body expr →
      (program.arena.get? expr).isSome = true) :
    program'.addressTaken body = program.addressTaken body := by
  refine same.searchTaken (fun expr member => ?_) (stepsLeft_start program body)
    (stepsLeft_start program' body) Array.size_replicate Array.size_replicate
    (fun expr lower => ?_) rfl
  · obtain rfl := List.mem_singleton.1 member
    exact .refl
  · obtain ⟨node, stored⟩ := Option.isSome_iff_exists.1 (found expr lower)
    have inside := (Array.getElem?_eq_some_iff.1 stored).1
    have inside' := (Array.getElem?_eq_some_iff.1 ((same.nodes expr lower).trans stored)).1
    rw [Array.getD_eq_getD_getElem?, Array.getD_eq_getD_getElem?, Array.getElem?_replicate,
      Array.getElem?_replicate]
    exact (congrArg (Option.getD · true) (if_pos inside')).trans
      (congrArg (Option.getD · true) (if_pos inside)).symm

end SameBody

end Program

end TreeLowering.Tree
