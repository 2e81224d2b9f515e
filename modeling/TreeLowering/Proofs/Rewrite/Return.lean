/-
This file compares a body that gives its value at its end with one that returns the value explicitly.
Both are lowered alike, with one exception: behind an expression of type never the block may still be
open, and then the end of a body turns the placeholder into one of the result type, while a `return`
leaves it as it is.
-/

import TreeLowering.Ir.Listing
import TreeLowering.Proofs.Calls.Made
import TreeLowering.Proofs.Calls.Unfold
import TreeLowering.Proofs.Restore
import TreeLowering.Proofs.Rewrite.Program

namespace TreeLowering.Lowering

open TreeLowering.Ir TreeLowering.Tree Relation

/-! ### Bodies that return explicitly -/

/-- The declaration is the same, or its body is a `return` of the body before. -/
def FunctionDecl.Returns (body explicit : ExprId) (decl decl' : FunctionDecl) : Prop :=
  decl' = decl ∨ decl.body = some body ∧ decl' = { decl with body := some explicit }

/-- The program with one more expression, and with other items. -/
@[reducible] def Source.grow (source : Source) (node : Node) (items : List Item) : Source :=
  source.swap (source.program.arena.push node).2 items

/-- Where the body leaves an open block behind in a function that has a result, its value is no
placeholder, or it is the placeholder of the result type. -/
def settledLaw (body : ExprId) : CallLaw := fun expr before value after =>
  expr = body → after.Live → ∀ ret ∈ before.env.returnType?, ret.isVoid = false →
    retype ret value = value

instance (body expr : ExprId) (before : Context) (value : Value) (after : Context) :
    Decidable (settledLaw body expr before value after) :=
  inferInstanceAs (Decidable (expr = body → after.builder.cursor.isSome = true →
    ∀ ret ∈ before.env.returnType?, ret.isVoid = false → retype ret value = value))

/-! ### The larger arena -/

section Arena

variable {arena : Arena} {body : ExprId} {span : Span} {ty : TypeId}

theorem get?_push (node : Node) {expr : ExprId} (inside : expr.index < arena.size) :
    (arena.push node).2.get? expr = arena.get? expr := by
  show (arena.nodes.push node)[expr.index]? = _
  rw [Array.getElem?_push_lt inside]
  exact (Array.getElem?_eq_getElem inside).symm

theorem get?_push_new (arena : Arena) (node : Node) :
    (arena.push node).2.get? ⟨arena.size⟩ = some node :=
  Array.getElem?_push_size

variable {span : Span} {ty : TypeId}

/-- What contains something in the larger arena did so before, or it is the new expression. -/
theorem contains_push {whole part : ExprId}
    (contains : (arena.push ⟨.returnWith (some body), span, ty⟩).2.Contains whole part) :
    arena.Contains whole part ∨ whole = ⟨arena.size⟩ ∧ part = body := by
  obtain ⟨node, found, member⟩ := contains
  have inside : whole.index < arena.size + 1 :=
    (Array.getElem?_eq_some_iff.1 found).1.trans_eq (Array.size_push _)
  rcases Nat.lt_succ_iff_lt_or_eq.1 inside with old | new
  · exact .inl ⟨node, (get?_push _ old).symm.trans found, member⟩
  · obtain rfl : whole = ⟨arena.size⟩ := congrArg ExprId.mk new
    cases (get?_push_new arena _).symm.trans found
    exact .inr ⟨rfl, List.mem_singleton.1 member⟩

section Whole

variable (complete : ∀ expr, ReflTransGen arena.Contains body expr →
  (arena.get? expr).isSome = true)

include complete

/-- Nothing new is below an expression whose parts all exist. -/
theorem below_push {expr : ExprId} (below : ReflTransGen
      (arena.push ⟨.returnWith (some body), span, ty⟩).2.Contains body expr) :
    ReflTransGen arena.Contains body expr := by
  induction below with
  | refl => exact .refl
  | tail _ contains inductionHypothesis =>
    rcases contains_push contains with old | ⟨rfl, _⟩
    · exact inductionHypothesis.tail old
    · exact absurd (complete _ inductionHypothesis) (by simp [Arena.get?, Arena.size])

theorem acyclic_push (acyclic : ∀ expr, ¬ TransGen arena.Contains expr expr) (expr : ExprId) :
    ¬ TransGen (arena.push ⟨.returnWith (some body), span, ty⟩).2.Contains expr expr := by
  -- a way on which the new expression does not lie was there before
  have ways : ∀ first last,
      TransGen (arena.push ⟨.returnWith (some body), span, ty⟩).2.Contains first last →
        TransGen arena.Contains first last ∨
          ReflTransGen (arena.push ⟨.returnWith (some body), span, ty⟩).2.Contains first
            ⟨arena.size⟩ ∧
          ReflTransGen (arena.push ⟨.returnWith (some body), span, ty⟩).2.Contains body last := by
    intro first last way
    induction way with
    | single contains =>
      rcases contains_push contains with old | ⟨rfl, rfl⟩
      · exact .inl (.single old)
      · exact .inr ⟨.refl, .refl⟩
    | tail way contains inductionHypothesis =>
      rcases inductionHypothesis with before | ⟨up, down⟩
      · rcases contains_push contains with old | ⟨rfl, rfl⟩
        · exact .inl (before.tail old)
        · exact .inr ⟨way.to_reflTransGen, .refl⟩
      · exact .inr ⟨up, down.tail contains⟩
  intro cycle
  rcases ways expr expr cycle with before | ⟨up, down⟩
  · exact acyclic expr before
  · have present := complete _ (below_push complete (down.trans up))
    simp [Arena.get?, Arena.size] at present

end Whole

end Arena

section Programs

variable {source source' : Source} {body : ExprId} {span : Span} {ty : TypeId}

/-- Below a body, a larger program is the same. -/
theorem Source.WellFormed.sameBelow_grow (formed : source.WellFormed) {decl : FunctionDecl}
    (listed : decl ∈ source.program.functions) (given : decl.body = some body)
    (items : List Item) {decl' : FunctionDecl} (listed' : decl' ∈ source.program.functions)
    {body' : ExprId} (given' : decl'.body = some body') :
    source.SameBelow (source.grow ⟨.returnWith (some body), span, ty⟩ items) body' := by
  have complete := formed.found decl listed body given
  have complete' := formed.found decl' listed' body' given'
  refine ⟨⟨rfl, rfl, rfl⟩, complete', rfl, fun expr below => ?_, formed.acyclic,
    acyclic_push complete formed.acyclic⟩
  have inside := Option.isSome_iff_exists.1 (complete' expr below)
  obtain ⟨node, found⟩ := inside
  have same : (source.grow ⟨.returnWith (some body), span, ty⟩ items).program.arena.get? expr =
      source.program.arena.get? expr := get?_push _ (inside_of_get? found)
  rw [same]
  exact .same _

end Programs

/-! ### One body -/

section Body

variable {source source' : Source} {body explicit : ExprId} {span : Span} {ty : TypeId}
  {taken taken' : List Name} {ret : Ty} {alarm : Error} {context after : Context} {value : Value}

/-- A `return` needs the address of no name itself. -/
theorem mem_addressTaken_returnWith {program : Program} {name : Name}
    (stored : program.arena.get? explicit = some ⟨.returnWith (some body), span, ty⟩) :
    name ∈ program.addressTaken explicit ↔ name ∈ program.addressTaken body := by
  rw [Program.mem_addressTaken_iff, Program.mem_addressTaken_iff]
  constructor
  · rintro ⟨expr, node, below, found, needs⟩
    rcases ReflTransGen.cases_head below with rfl | ⟨part, ⟨whole, stored', member⟩, below⟩
    · cases stored.symm.trans found
      cases needs
    · cases stored.symm.trans stored'
      obtain rfl := List.mem_singleton.1 member
      exact ⟨expr, node, below, found, needs⟩
  · rintro ⟨expr, node, below, found, needs⟩
    exact ⟨expr, node, .head ⟨_, stored, List.mem_singleton_self body⟩ below, found, needs⟩

/-- A watched call that returned has obeyed. -/
theorem obeys_of_watched {law : CallLaw}
    [∀ expr before value after, Decidable (law expr before value after)]
    (returned : watchedExpr law alarm source taken body context = .ok value after) :
    law body context value after := by
  obtain ⟨fuel, depth⟩ : ∃ fuel, source.exprDepth = fuel + 1 :=
    Nat.exists_eq_succ_of_ne_zero (Nat.succ_ne_zero _)
  rw [watchedExpr, depth, watchedWithin, watched] at returned
  split at returned
  · split at returned
    · next obeyed =>
      cases returned
      exact obeyed
    · cases returned
  · cases returned

/-- Behind a return there is no open block. -/
theorem not_live_of_ret {operand : Option Value}
    (closed : build (Build.ret operand) context = .ok () after) : ¬ after.Live := by
  have left := ((Build.ends_terminate _ _).of_ok (builder_of_build closed)).1
  rw [Context.Live, left]
  exact Bool.false_ne_true

section Same

variable (same : source.SameBelow source' body)
  (alike : ∀ name, taken'.contains name = taken.contains name)
  (stored : source'.program.arena.get? explicit = some ⟨.returnWith (some body), span, ty⟩)
  (returns : context.env.returnType? = some ret)

include same alike stored returns

/-- A `return` lowers its operand, and closes the block behind it. -/
theorem lowerExpr_explicit (live : context.Live) :
    lowerExpr source' taken' explicit context =
      thenLive .unreachable (lowerExpr source taken body) (returnValue ret) context := by
  obtain ⟨fuel, depth⟩ : ∃ fuel, source'.exprDepth = fuel + 1 :=
    Nat.exists_eq_succ_of_ne_zero (Nat.succ_ne_zero _)
  have enough : 2 * source'.program.arena.size ≤ fuel := by
    unfold Source.exprDepth at depth
    omega
  have operand : lowerWithin source' taken' fuel body = lowerExpr source taken body :=
    same.lowerWithin alike (by unfold Source.exprDepth; omega) enough
  have asked : (get : LowerM Context) context = .ok context context := rfl
  rw [lowerExpr, depth, lowerWithin, lowerNode_returnWith live stored, lowerReturn, run_bind asked,
    returns]
  show thenLive .unreachable (lowerWithin source' taken' fuel body) (returnValue ret) context = _
  rw [operand]

/-- The end of a body whose value is settled does what an explicit `return` does. -/
theorem end_explicit :
    thenLive () (watchedExpr (settledLaw body) alarm source taken body) (finishBody ret) context =
        thenLive () (lowerExpr source' taken' explicit) (finishBody ret) context ∨
      ∃ after, thenLive () (watchedExpr (settledLaw body) alarm source taken body) (finishBody ret)
        context = .error alarm after := by
  have mirrors := (mirrors_lowerWithin (settledLaw body) alarm source taken source.exprDepth).1 body
  rcases mirrors context with plain | ⟨after, raised⟩
  swap
  · exact .inr ⟨after, run_bind_error raised⟩
  left
  replace plain : watchedExpr (settledLaw body) alarm source taken body context =
    lowerExpr source taken body context := plain
  by_cases live : context.Live
  swap
  · have dead := lowerExpr_dead live source taken body
    rw [run_thenLive_dead (plain.trans dead) live,
      run_thenLive_dead (lowerExpr_dead live source' taken' explicit) live]
  have given := lowerExpr_explicit same alike stored returns live
  cases ended : lowerExpr source taken body context with
  | error cause after =>
    exact (run_bind_error (plain.trans ended)).trans
      (run_bind_error (given.trans (run_bind_error ended))).symm
  | ok value after =>
    by_cases reached : after.Live
    swap
    · rw [run_thenLive_dead (plain.trans ended) reached,
        run_thenLive_dead (given.trans (run_thenLive_dead ended reached)) reached]
    have settled := obeys_of_watched (plain.trans ended) rfl reached ret returns
    have operand : (if ret.isVoid then none else some (retype ret value)) =
        if ret.isVoid then none else some value := by
      cases void : ret.isVoid with
      | true => rfl
      | false => exact congrArg some (settled void)
    rw [run_thenLive ended reached] at given
    rw [run_thenLive (plain.trans ended) reached, finishBody, operand]
    cases closed : build (Build.ret (if ret.isVoid then none else some value)) after with
    | error cause final => exact (run_bind_error (given.trans (run_bind_error closed))).symm
    | ok _ final =>
      have left : lowerExpr source' taken' explicit context = .ok .unreachable final :=
        given.trans (run_bind closed)
      exact (run_thenLive_dead left (not_live_of_ret closed)).symm

end Same

/-- A function whose body is settled is lowered as one that returns the same explicitly. -/
theorem mirrors_explicit (same : source.SameBelow source' body)
    (stored : source'.program.arena.get? explicit = some ⟨.returnWith (some body), span, ty⟩)
    {decl : FunctionDecl} (given : decl.body = some body) (func : FuncId) :
    Mirrors alarm (lowerFunction source' { decl with body := some explicit } func)
      (lowerFunctionBy (watchedExpr (settledLaw body) alarm source) source decl func) := by
  have alike : ∀ name, (source'.program.addressTaken explicit).contains name =
      (source.program.addressTaken body).contains name := by
    intro name
    rw [← same.contains_addressTaken, Bool.eq_iff_iff, List.contains_iff_mem,
      List.contains_iff_mem]
    exact mem_addressTaken_returnWith stored
  unfold lowerFunction lowerFunctionBy
  rw [given]
  refine (Mirrors.refl _).bind fun entry => (Mirrors.refl _).bind fun function => ?_
  refine (Mirrors.refl _).bind fun _ start => ?_
  let inside : Context :=
    { start with env := start.env.pushFunction function.ret }.enterScope decl.scope
  have tables := same.tables
  unfold inFunction inScope
  dsimp only
  rw [tables.bindParams alike]
  cases bound : bindParams source (source.program.addressTaken body) func 0 decl.params inside with
  | error cause after =>
    rw [run_bind_error bound, run_bind_error bound]
    exact .inl rfl
  | ok _ middle =>
    have kept := ((Regime.remembering.steady_true source).bindParams _ func 0 decl.params
      ⟨trivial, trivial⟩).of_ok bound
    have returns : middle.env.returnType? = some function.ret := by
      rw [Env.returnType?, kept.1.frames]
      rfl
    rw [run_bind bound, run_bind bound]
    rcases end_explicit same alike stored returns with equal | ⟨after, raised⟩
    · rw [equal]
      exact .inl rfl
    · rw [raised]
      exact .inr ⟨_, rfl⟩

end Body

/-! ### Any body -/

/-- Any functions with one body may return its value explicitly. When the body is settled wherever
control gets behind it, the program is lowered to the same module, or fails with the same error. -/
theorem lowerProgram_explicitReturn {source : Source} {options : Options} {body : ExprId}
    {span : Span} {ty : TypeId} {items' : List Item} {decl : FunctionDecl}
    (formed : source.WellFormed) (listed : decl ∈ source.program.functions)
    (given : decl.body = some body)
    (replaced : List.Forall₂
      (Item.Counterpart (FunctionDecl.Returns body ⟨source.program.arena.size⟩))
      source.program.items items') (settled : EveryCall source options (settledLaw body)) :
    lowerProgram (source.grow ⟨.returnWith (some body), span, ty⟩ items') options =
      lowerProgram source options := by
  have below : ∀ decl' ∈ source.program.functions, ∀ body' ∈ decl'.body,
      source.SameBelow (source.grow ⟨.returnWith (some body), span, ty⟩ items') body' :=
    fun decl' listed' body' given' => formed.sameBelow_grow listed given items' listed' given'
  have tables : source.SameTables (source.grow ⟨.returnWith (some body), span, ty⟩ items') :=
    ⟨rfl, rfl, rfl⟩
  have all : ∀ decl' ∈ source.program.items.flatMap Item.functions,
      decl' ∈ source.program.functions := fun _ => id
  have pairs := forall₂_listed replaced all
  refine lowerProgram_eq_of_mirrors (fun alarm => ?_) settled
  refine mirrors_counterparts ?_ tables ?_ pairs
  · rintro other other' ⟨listed', rfl | ⟨given', rfl⟩⟩ func
    · rw [tables.lowerFunction (below _ listed') func, ← lowerFunctionBy_lowerExpr]
      refine mirrors_function source (fun part => ?_) _ func
      exact (mirrors_lowerWithin (settledLaw body) alarm source _ source.exprDepth).1 part
    · exact mirrors_explicit (below _ listed' body given') (get?_push_new _ _) given' func
  · rintro other other' ⟨_, rfl | ⟨_, rfl⟩⟩
    · rfl
    · rfl

/-- `fn spin(flag: bool) -> i32` with the given body. -/
def spin (body : ExprId) : FunctionDecl where
  name := ⟨1⟩
  link := ⟨1⟩
  params := [⟨⟨2⟩, .bool, false, .nowhere⟩]
  ret := .i32
  body := some body
  scope := .root
  span := .nowhere

/-- `fn spin(flag: bool) -> i32 { if flag { loop {} } else { 2 } }` -/
def spinning : Source where
  names := ((NameTable.initial.intern "spin").2.intern "flag").2
  program :=
    { types := .initial
      scopes := .initial
      arena := ⟨#[⟨.path [⟨2⟩], .nowhere, .bool⟩, ⟨.block .root [] none, .nowhere, .unit⟩,
        ⟨.loop ⟨1⟩, .nowhere, .never⟩, ⟨.int 2, .nowhere, .i32⟩,
        ⟨.cond ⟨0⟩ ⟨2⟩ (some ⟨3⟩), .nowhere, .i32⟩]⟩
      items := [.function (spin ⟨4⟩)] }

theorem spinning_wellFormed : spinning.WellFormed :=
  .of_initial rfl (by decide) ((NameTable.Made.initial.intern _).intern _) (by decide)
    (by decide +kernel)

/-- The conditional joins both arms, so its value may be returned at the end or explicitly. -/
theorem spinning_explicitReturn : ∃ target, lowerProgram spinning .standard = .ok target ∧
    lowerProgram (spinning.grow ⟨.returnWith (some ⟨4⟩), .nowhere, .never⟩ [.function (spin ⟨5⟩)])
      .standard = .ok target := by
  have settled : EveryCall spinning .standard (settledLaw ⟨4⟩) := by
    intro alarm
    cbv
  have accepted : ∃ target, lowerProgram spinning .standard = .ok target := ⟨_, by cbv⟩
  obtain ⟨target, accepted⟩ := accepted
  refine ⟨target, accepted, ?_⟩
  rw [← accepted]
  exact lowerProgram_explicitReturn spinning_wellFormed List.mem_cons_self rfl
    (.cons (.function (.inr ⟨rfl, rfl⟩)) .nil) settled

/-- `fn spin(flag: bool) -> i32 { loop {} }` -/
def idling : Source where
  names := ((NameTable.initial.intern "spin").2.intern "flag").2
  program :=
    { types := .initial
      scopes := .initial
      arena := ⟨#[⟨.block .root [] none, .nowhere, .unit⟩, ⟨.loop ⟨0⟩, .nowhere, .never⟩]⟩
      items := [.function (spin ⟨1⟩)] }

/-- Behind an endless loop, the end of a body returns a placeholder of the result type; an explicit
`return` returns one of type never. -/
theorem idling_returns : idling.WellFormed ∧ idling.program.items = [.function (spin ⟨1⟩)] ∧
    (lowerProgram idling .standard).toOption.map Module.listing =
      some "define i32 @spin(bool %flag) \x7b
entry:
  jmp %loop.body.1
loop.body.1:
  jmp %loop.body.1
loop.exit.2:
  ret i32 undef
\x7d
" ∧
    (lowerProgram (idling.grow ⟨.returnWith (some ⟨1⟩), .nowhere, .never⟩ [.function (spin ⟨2⟩)])
      .standard).toOption.map Module.listing =
      some "define i32 @spin(bool %flag) \x7b
entry:
  jmp %loop.body.1
loop.body.1:
  jmp %loop.body.1
loop.exit.2:
  ret void undef
\x7d
" := by
  refine ⟨.of_initial rfl (by decide) ((NameTable.Made.initial.intern _).intern _) (by decide)
    (by decide +kernel), rfl, ?_, ?_⟩
  · cbv
  · cbv

end TreeLowering.Lowering
