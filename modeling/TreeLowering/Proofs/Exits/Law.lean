/-
This file proves that joins and exits are typed. When the annotations of a program agree, and every
expression lowers to a value of its annotated type, then each phi joins values of its own type and
each return gives what its function promises. Expressions annotated never are the exception that
needs care. Control may get behind them, and then an arm or a body must yield the placeholder, which
takes the type of its place; a value that is returned must not come from such an expression at all,
since a return leaves the placeholder as it is.
-/

import TreeLowering.Proofs.Calls.Watch
import TreeLowering.Proofs.Exits.Typed

namespace TreeLowering.Tree

/-- Expressions of the type have a value: it is neither unit nor never. -/
def TypeId.Valued (ty : TypeId) : Prop := ty ≠ .unit ∧ ty ≠ .never

instance (ty : TypeId) : Decidable ty.Valued := inferInstanceAs (Decidable (_ ∧ _))

namespace ExprKind

/-- The arms of a conditional that has both. -/
def arms : ExprKind → List ExprId
  | cond _ thenArm (some elseArm) => [thenArm, elseArm]
  | _ => []

/-- What a `return` gives, if it gives something. -/
def returned? : ExprKind → Option ExprId
  | returnWith value => value
  | _ => none

theorem arms_subset (kind : ExprKind) : kind.arms ⊆ kind.children := by
  intro arm member
  unfold arms at member
  split at member
  · exact List.mem_cons_of_mem _ member
  · cases member

end ExprKind

end TreeLowering.Tree

namespace TreeLowering.Lowering

open TreeLowering.Ir TreeLowering.Tree Relation

/-! ### Annotations -/

namespace Source

variable (source : Source)

/-- The type an expression is annotated with. -/
def typeOf? (expr : ExprId) : Option TypeId := (source.program.arena.get? expr).map Node.ty

/-- The expression is annotated with the type or with never. -/
def Agrees (expr : ExprId) (ty : TypeId) : Prop :=
  ∀ own ∈ source.typeOf? expr, own = ty ∨ own = .never

instance (expr : ExprId) (ty : TypeId) : Decidable (source.Agrees expr ty) :=
  inferInstanceAs (Decidable (∀ own ∈ source.typeOf? expr, _))

/-- The annotations agree where values are joined and returned. -/
structure Annotated : Prop where
  arms : ∀ node ∈ source.program.arena.nodes, node.ty.Valued → ∀ arm ∈ node.kind.arms,
    source.Agrees arm node.ty
  bodies : ∀ decl ∈ source.program.functions, ∀ body ∈ decl.body, source.Agrees body decl.ret
  returns : ∀ decl ∈ source.program.functions, ∀ body ∈ decl.body, ∀ expr node,
    ReflTransGen source.program.arena.Contains body expr →
    source.program.arena.get? expr = some node →
    (∀ operand ∈ node.kind.returned?, source.Agrees operand decl.ret) ∧
      (node.kind = .returnWith none → ¬ decl.ret.Valued)

variable {source} in
/-- It is enough that every function agrees with every `return`. -/
theorem Annotated.of_all
    (arms : ∀ node ∈ source.program.arena.nodes, node.ty.Valued → ∀ arm ∈ node.kind.arms,
      source.Agrees arm node.ty)
    (bodies : ∀ decl ∈ source.program.functions, ∀ body ∈ decl.body, source.Agrees body decl.ret)
    (returns : ∀ decl ∈ source.program.functions, ∀ node ∈ source.program.arena.nodes,
      (∀ operand ∈ node.kind.returned?, source.Agrees operand decl.ret) ∧
        (node.kind = .returnWith none → ¬ decl.ret.Valued)) : source.Annotated :=
  ⟨arms, bodies, fun decl listed _ _ _ node _ found =>
    returns decl listed node (Array.mem_of_getElem? found)⟩

/-- The placeholder takes another type where it comes from this expression: as an arm of a
conditional that has a value, or as the body of a function that has one. -/
def Retyped (expr : ExprId) : Prop :=
  (∃ node ∈ source.program.arena.nodes, node.ty.Valued ∧ expr ∈ node.kind.arms) ∨
    ∃ decl ∈ source.program.functions, decl.ret.Valued ∧ decl.body = some expr

/-- Some `return` gives the value of the expression. -/
def Returned (expr : ExprId) : Prop :=
  ∃ node ∈ source.program.arena.nodes, node.kind.returned? = some expr

instance (expr : ExprId) : Decidable (source.Retyped expr) :=
  inferInstanceAs (Decidable (_ ∨ _))

instance (expr : ExprId) : Decidable (source.Returned expr) :=
  inferInstanceAs (Decidable (∃ node ∈ source.program.arena.nodes, _))

end Source

/-! ### Laws -/

/-- An expression that is not annotated never lowers to a value of the type it is annotated with. -/
def typedLaw (source : Source) : CallLaw := fun expr _ value _ =>
  ∀ ty ∈ source.typeOf? expr, ty ≠ .never → value.ty = source.translation ty

instance (source : Source) (expr : ExprId) (before : Context) (value : Value) (after : Context) :
    Decidable (typedLaw source expr before value after) :=
  inferInstanceAs (Decidable (∀ ty ∈ source.typeOf? expr, _))

/-- What an expression yields when control gets behind it, in a function that returns `ret`. -/
structure YieldsTyped (source : Source) (ret : Option Ty) (expr : ExprId) (value : Value) :
    Prop where
  typed : ∀ ty ∈ source.typeOf? expr, ty ≠ .never → value.ty = source.translation ty
  /-- Where the placeholder takes the type of its place, an expression annotated never yields it. -/
  standsIn : source.typeOf? expr = some .never → source.Retyped expr → value.isUndef = true
  /-- A function with a result does not return what is annotated never. -/
  returned : source.typeOf? expr = some .never → source.Returned expr → ret.any Ty.isVoid = true

instance (source : Source) (ret : Option Ty) (expr : ExprId) (value : Value) :
    Decidable (YieldsTyped source ret expr value) :=
  decidable_of_iff
    ((∀ ty ∈ source.typeOf? expr, ty ≠ .never → value.ty = source.translation ty) ∧
      (source.typeOf? expr = some .never → source.Retyped expr → value.isUndef = true) ∧
        (source.typeOf? expr = some .never → source.Returned expr → ret.any Ty.isVoid = true))
    ⟨fun ⟨typed, standsIn, returned⟩ => ⟨typed, standsIn, returned⟩,
      fun ⟨typed, standsIn, returned⟩ => ⟨typed, standsIn, returned⟩⟩

/-- The law of a call that leaves an open block behind. -/
def exitLaw (source : Source) : CallLaw := fun expr before value after =>
  after.Live → YieldsTyped source before.env.returnType? expr value

instance (source : Source) (expr : ExprId) (before : Context) (value : Value) (after : Context) :
    Decidable (exitLaw source expr before value after) :=
  inferInstanceAs (Decidable (after.builder.cursor.isSome = true → _))

/-- A call that is watched keeps to the rules, and obeys the law when it returns. -/
theorem Keeps.watched {regime : Regime} {view : Env → Env} {context : Context} {law : CallLaw}
    [∀ expr before value after, Decidable (law expr before value after)] {alarm : Error}
    {expr : ExprId} {action : LowerM Value} {post : Value → Context → Prop}
    (keeps : Keeps regime view action context post) (excused : regime.excused alarm) :
    Keeps regime view (watched (law expr) alarm action) context fun value after =>
      post value after ∧ regime.Rules context ∧ law expr context value after := by
  intro rules
  have ended := keeps rules
  unfold Ends Lowering.watched at *
  cases returned : action context with
  | error cause after =>
    rw [returned] at ended
    exact ended
  | ok value after =>
    rw [returned] at ended
    obtain ⟨same, rules', holds⟩ := ended
    by_cases obeyed : law expr context value after
    · simp only [if_pos obeyed]
      exact ⟨same, rules', holds, rules, obeyed⟩
    · simp only [if_neg obeyed]
      exact ⟨same, excused⟩

section Typing

variable {source : Source} {decl : FunctionDecl} {body expr : ExprId} {value : Value} {ty : TypeId}
  {ret : Ty}

/-- A type that stands for something is neither unit nor never. -/
theorem Source.WellFormed.valued (formed : source.WellFormed)
    (solid : (source.translation ty).isVoid = false) : ty.Valued := by
  rw [formed.mappable.translation_eq] at solid
  constructor
  · rintro rfl
    rw [formed.pool.kind_eq (show TypePool.initial.kind .unit ≠ .infer by decide)] at solid
    cases solid
  · rintro rfl
    rw [formed.pool.kind_eq (show TypePool.initial.kind .never ≠ .infer by decide)] at solid
    cases solid

theorem YieldsTyped.in_function {ret? : Option Ty} (yields : YieldsTyped source ret? expr value)
    (same : ∀ promised ∈ ret?, promised = ret) : YieldsTyped source (some ret) expr value := by
  refine ⟨yields.typed, yields.standsIn, fun never returned => ?_⟩
  obtain ⟨promised, here, void⟩ := (Option.any_eq_true _ _).1 (yields.returned never returned)
  rw [← same promised here]
  exact void

/-- In its place, what an arm or a body yields has the type of the place. -/
theorem YieldsTyped.retype {ret? : Option Ty} (yields : YieldsTyped source ret? expr value)
    (found : (source.program.arena.get? expr).isSome = true) (agrees : source.Agrees expr ty)
    (valued : ty.Valued) (retyped : source.Retyped expr) :
    (retype (source.translation ty) value).ty = source.translation ty := by
  unfold Lowering.retype
  split
  · rfl
  · next solid =>
    obtain ⟨node, stored⟩ := Option.isSome_iff_exists.1 found
    have annotated : source.typeOf? expr = some node.ty := by rw [Source.typeOf?, stored]; rfl
    rcases agrees node.ty annotated with same | never
    · exact same ▸ yields.typed node.ty annotated (same ▸ valued.2)
    · exact absurd (yields.standsIn (never ▸ annotated) retyped) solid

/-- The regime of a declaration's body. -/
abbrev Regime.inBody (source : Source) (declared : List (FunctionDecl × FuncId))
    (decl : FunctionDecl) : Regime :=
  .typed source declared (source.translation decl.ret)
    (YieldsTyped source (some (source.translation decl.ret)))

section Body

variable (formed : source.WellFormed) (annotated : source.Annotated)
  (listed : decl ∈ source.program.functions) (given : body ∈ decl.body)

include formed annotated listed given

theorem fits_inBody {declared : List (FunctionDecl × FuncId)} {node : Node}
    (below : ReflTransGen source.program.arena.Contains body expr)
    (found : source.program.arena.get? expr = some node) :
    (Regime.inBody source declared decl).Fits node.kind node.ty := by
  have exists_ : ∀ part ∈ node.kind.children,
      (source.program.arena.get? part).isSome = true := fun part member =>
    formed.found decl listed body given part (below.tail ⟨node, found, member⟩)
  have stored : node ∈ source.program.arena.nodes := Array.mem_of_getElem? found
  obtain ⟨operands, bare⟩ := annotated.returns decl listed body given expr node below found
  refine ⟨fun {test thenArm elseArm} kind => ?_, fun {returned} kind => ?_,
    fun _ _ _ _ _ => trivial⟩
  · rintro _ incoming rfl solid each pair member
    obtain ⟨pair, inside, rfl⟩ := List.mem_map.1 member
    obtain ⟨arm, choice, yields⟩ := each pair inside
    have valued := formed.valued solid
    have arms : arm ∈ node.kind.arms := by rw [kind]; exact choice
    exact YieldsTyped.retype yields (exists_ arm (node.kind.arms_subset arms))
      (annotated.arms node stored valued arm arms) valued (.inl ⟨node, stored, valued, arms⟩)
  · cases returned with
    | none =>
      intro promised _ solid
      exact absurd (formed.valued solid) (bare kind)
    | some operand =>
      rintro _ value rfl yields solid
      rw [if_neg (by rw [solid]; exact Bool.false_ne_true)]
      refine ⟨value, rfl, ?_⟩
      obtain ⟨inner, stored'⟩ := Option.isSome_iff_exists.1
        (exists_ operand (by rw [kind]; exact List.mem_singleton_self _))
      have typed : source.typeOf? operand = some inner.ty := by
        rw [Source.typeOf?, stored']
        rfl
      have here : node.kind.returned? = some operand := by rw [kind]; rfl
      rcases operands operand here inner.ty typed with same | never
      · exact same ▸ yields.typed inner.ty typed (same ▸ (formed.valued solid).2)
      · have void := yields.returned (never ▸ typed) ⟨node, stored, here⟩
        rw [Option.any_some, solid] at void
        cases void

/-- Every expression of a body keeps to the regime of the body, as long as no alarm is raised. -/
theorem inBody_watchedWithin (declared : List (FunctionDecl × FuncId)) (alarm : Error)
    (taken : List Name) (fuel : Nat) {part : ExprId}
    (below : ReflTransGen source.program.arena.Contains body part) :
    (Regime.inBody source declared decl).Lowers
      ⟨source, taken, watchedWithin (exitLaw source) alarm source taken fuel,
        watchedPlaceWithin (exitLaw source) alarm source taken fuel⟩ part := by
  have steady : (Regime.inBody source declared decl).Steady source := Regime.typed.steady formed
  induction fuel generalizing part with
  | zero => exact ⟨fun _ => trivial, fun _ => .throw trivial, fun _ => .throw trivial⟩
  | succ fuel inductionHypothesis =>
    have parts : ∀ node, source.program.arena.get? part = some node →
        ∀ other ∈ node.kind.children, (Regime.inBody source declared decl).Lowers
          ⟨source, taken, watchedWithin (exitLaw source) alarm source taken fuel,
            watchedPlaceWithin (exitLaw source) alarm source taken fuel⟩ other :=
      fun node found other member => inductionHypothesis (below.tail ⟨node, found, member⟩)
    refine ⟨fun _ => trivial, fun context => ?_, fun context => ?_⟩
    · have level : Keeps (Regime.inBody source declared decl) id (lowerNode
          ⟨source, taken, watchedWithin (exitLaw source) alarm source taken fuel,
            watchedPlaceWithin (exitLaw source) alarm source taken fuel⟩ part) context Finished :=
        steady.lowerNode (fun _ => trivial) parts
          (fun node found => fits_inBody formed annotated listed given below found)
          fun _ _ _ => (inductionHypothesis below).place
      refine (level.watched trivial).mono
        fun value after ⟨finished, rules, obeyed⟩ => ⟨fun live => ?_, finished⟩
      refine (obeyed live).in_function fun promised here => ?_
      obtain ⟨frame, first, rfl⟩ := Option.map_eq_some_iff.1 here
      exact rules.frames frame first
    · exact steady.lowerNodePlace (fun _ => trivial) parts fun _ _ _ context =>
        ((inductionHypothesis below).expr context).mono fun _ _ _ => trivial

end Body

end Typing

/-! ### Declarations -/

section Programs

variable {source : Source} {declared : List (FunctionDecl × FuncId)} {context : Context}

/-- A signature is declared with the type it stands for. -/
theorem signed_declareFn (formed : source.WellFormed) (decl : FunctionDecl) :
    Keeps (Regime.truthful source) id (declareFn source decl) context fun func after =>
      Signed source after.builder.target (decl, func) := by
  have steady := Regime.truthful.steady formed
  have params : ∀ context, Keeps (Regime.truthful source) id (decl.params.mapM fun param => do
      return Ir.Param.mk (source.names.text param.name) (← lowerType source param.ty)) context
      fun results after => List.Forall₂ (fun _ _ => True) decl.params results ∧
        after.builder.cursor = context.builder.cursor := fun context =>
    Keeps.mapM fun param _ _ => steady.lowerType.bind fun _ _ kept => .pure ⟨trivial, kept.2⟩
  refine (params context).bind fun given _ _ => ?_
  refine steady.lowerType.bind fun ret second ⟨right, _⟩ => ?_
  refine .build (fun cause after failed => ?_) fun func after holds returned => ?_
  · exact steady.pardons cause ((Build.stays_declareFunction _ _ _ _).of_error failed)
  · refine ⟨steady.declares holds func after returned, ?_⟩
    have signed : Returns (Build.declare fun target =>
        target.declareFunction (source.names.text decl.link) given ret) second.builder
        fun func after => Signed source after.target (decl, func) :=
      Build.returns_declare fun _ _ added => by
        obtain ⟨function, found, promised⟩ := Module.declareFunction_ret added
        exact ⟨function, found, promised.trans right⟩
    exact signed func after returned

/-- What is declared one by one is settled together. -/
theorem settled_declareAll (formed : source.WellFormed) (decls : List FunctionDecl)
    (settled : Settled source declared context.builder.target context.memo) :
    Ends (decls.mapM fun decl => do return (decl, ← declareFn source decl)) context
      (fun added after => Settled source (declared ++ added) after.builder.target after.memo)
      fun _ _ => True := by
  induction decls generalizing declared context with
  | nil =>
    show Settled source (declared ++ []) _ _
    rwa [List.append_nil]
  | cons decl decls inductionHypothesis =>
    have rules : (Regime.truthful source).Rules context :=
      ⟨⟨settled.truthful, settled.idle⟩, trivial⟩
    rw [List.mapM_cons, ends_bind, ends_bind]
    refine ((signed_declareFn formed decl rules).and (ensures_declareFn source decl).ends).mono
      (fun func first kept => ?_) fun _ _ _ => trivial
    obtain ⟨⟨_, rules', signed⟩, quietly, _⟩ := kept
    have extended := settled.extend quietly.declares rules'.holds.1 rules'.holds.2
    have settled' : Settled source (declared ++ [(decl, func)]) first.builder.target first.memo := by
      refine ⟨extended.truthful, extended.idle, extended.typed, fun pair member => ?_⟩
      rcases List.mem_append.1 member with old | new
      · exact extended.signed pair old
      · cases List.mem_singleton.1 new
        exact signed
    show Ends (decls.mapM _ >>= fun added => pure ((decl, func) :: added)) first _ _
    rw [ends_bind]
    refine (inductionHypothesis settled').mono (fun added after settled => ?_) fun _ _ => id
    show Settled source (declared ++ (decl, func) :: added) _ _
    rwa [List.append_assoc] at settled

/-- All structs and constants are declared, and nothing else. -/
theorem settled_declareItems (formed : source.WellFormed)
    (settled : Settled source declared context.builder.target context.memo) :
    Ends (source.program.items.forM (declareItem source)) context
      (fun _ after => Settled source declared after.builder.target after.memo)
      fun _ _ => True := by
  have rules : (Regime.truthful source).Rules context :=
    ⟨⟨settled.truthful, settled.idle⟩, trivial⟩
  have keeps : Keeps (Regime.truthful source) id (source.program.items.forM (declareItem source))
      context fun _ _ => True :=
    Keeps.forM fun item _ _ => (Regime.truthful.steady formed).declareItem item
  refine ((keeps rules).and (ensures_declareItems source).ends).mono
    (fun _ after kept => ?_) fun _ _ _ => trivial
  obtain ⟨⟨_, rules', _⟩, quietly⟩ := kept
  exact settled.extend quietly.declares rules'.holds.1 rules'.holds.2

theorem Settled.start (source : Source) (options : Options) :
    Settled source [] (Context.start options).builder.target (Context.start options).memo := by
  refine ⟨.start source options.moduleName, rfl, fun func function found => ?_,
    List.forall_mem_nil _⟩
  cases found

/-! ### Bodies -/

/-- What a step of the builder returns with is what the run returns with. -/
theorem Returns.built {α : Type} {action : BuildM α} {post : α → Context → Prop}
    (returns : Returns action context.builder fun result builder =>
      post result { context with builder }) :
    Ends (build action) context post fun _ _ => True := by
  obtain ⟨builder, env, memo, strings, scope⟩ := context
  unfold Ends build
  simp only
  cases returned : action builder with
  | ok result after => exact returns result after returned
  | error cause after => exact True.intro

/-- One body is lowered, while no alarm is raised. -/
theorem settled_lowerFunction (formed : source.WellFormed) (annotated : source.Annotated)
    (alarm : Error) {decl : FunctionDecl} {func : FuncId} (member : (decl, func) ∈ declared)
    (listed : decl ∈ source.program.functions) (outside : context.env.frames = [])
    (settled : Settled source declared context.builder.target context.memo) :
    Ends (lowerFunctionBy (watchedExpr (exitLaw source) alarm source) source decl func) context
      (fun _ after => after.env.frames = [] ∧
        Settled source declared after.builder.target after.memo) fun _ _ => True := by
  unfold lowerFunctionBy
  cases given : decl.body with
  | none => exact ⟨outside, settled⟩
  | some body =>
    have steady : (Regime.inBody source declared decl).Steady source := Regime.typed.steady formed
    dsimp only
    rw [ends_bind]
    refine Returns.built (Build.returns_ensureEntry ?_)
    have started := settled.withEntry func
    rw [ends_bind]
    refine Returns.built (Build.returns_ask fun function got => ?_)
    have promised : function.ret = source.translation decl.ret := by
      obtain ⟨function', found, signed⟩ := started.signed _ member
      rw [Module.getFunction_of_found found] at got
      cases got
      exact signed
    rw [ends_bind]
    refine Returns.built ((Building.positionAt started ⟨decl, member, rfl⟩ _).mono
      fun _ positioned building => ?_)
    rw [promised]
    have lowers : ∀ context, Keeps (Regime.inBody source declared decl) id
        (watchedExpr (exitLaw source) alarm source (source.program.addressTaken body) body) context
        ((Regime.inBody source declared decl).Gives body) := by
      intro context
      unfold watchedExpr
      exact (inBody_watchedWithin formed annotated listed given declared alarm
        (source.program.addressTaken body) source.exprDepth .refl).expr context
    have found := formed.found decl listed body given body .refl
    have rules : (Regime.inBody source declared decl).Rules { context with builder := positioned } := by
      refine ⟨building, fun frame first => ?_⟩
      rw [outside] at first
      cases first
    refine (steady.body ?_ lowers (fun value yields solid => ?_) rules).mono
      (fun _ after kept => ?_) fun _ _ _ => trivial
    · intro frame first
      cases first
      rfl
    · have valued := formed.valued solid
      rw [if_neg (by rw [solid]; exact Bool.false_ne_true)]
      exact ⟨_, rfl, yields.retype found (annotated.bodies decl listed body given) valued
        (.inr ⟨decl, listed, valued, given⟩)⟩
    · exact ⟨kept.1.frames.trans outside, kept.2.1.holds.settled⟩

/-- In an accepted program whose annotations agree and whose expressions yield what they are annotated
with, every phi joins values of its own type, and every return gives what its function promises. -/
theorem lowerProgram_typed {options : Options} {target : Module} (formed : source.WellFormed)
    (annotated : source.Annotated) (calls : EveryCall source options (exitLaw source))
    (returned : lowerProgram source options = .ok target) : target.Typed := by
  rw [← calls .malformedTree, lowerProgramBy] at returned
  cases run : lowerItemsBy (watchedExpr (exitLaw source) .malformedTree source) source
      (Context.start options) with
  | error cause context =>
    rw [run] at returned
    cases returned
  | ok result last =>
    rw [run] at returned
    cases returned
    have ended : Ends (lowerItemsBy (watchedExpr (exitLaw source) .malformedTree source) source)
        (Context.start options) (fun _ after => after.builder.target.Typed) fun _ _ => True := by
      unfold lowerItemsBy
      rw [ends_bind]
      refine ((settled_declareItems formed (.start source options)).and
        (ensures_declareItems source).ends).mono (fun _ first kept => ?_) fun _ _ _ => trivial
      rw [ends_bind]
      refine ((settled_declareAll formed _ kept.1).and
        (ensures_declareAll source source.program.functions).ends).mono
          (fun declared second kept' => ?_) fun _ _ _ => trivial
      obtain ⟨settled, quietly, same, _⟩ := kept'
      have outside : second.env.frames = [] := by
        rw [quietly.env, kept.2.env]
        rfl
      let invariant (context : Context) : Prop := context.env.frames = [] ∧
        Settled source declared context.builder.target context.memo
      have start : invariant second := ⟨outside, settled⟩
      refine (Ends.forM (fun pair member state holds => ?_) start).mono
        (fun _ after holds => holds.2.typed) fun _ _ => id
      exact settled_lowerFunction formed annotated _ member
        (same ▸ List.mem_map_of_mem member) holds.1 holds.2
    exact ended.of_ok run

end Programs

/-! ### Programs -/

/-- `fn pick(flag: bool) -> i32 { if flag { return 1 } if flag { loop {} } else { 2 } }` -/
def pick : Source where
  names := (((NameTable.initial.intern "pick").2).intern "flag").2
  program :=
    { types := .initial
      scopes := .initial
      arena := ⟨#[⟨.path [⟨2⟩], .nowhere, .bool⟩, ⟨.int 1, .nowhere, .i32⟩,
        ⟨.returnWith (some ⟨1⟩), .nowhere, .never⟩, ⟨.cond ⟨0⟩ ⟨2⟩ none, .nowhere, .unit⟩,
        ⟨.block .root [] none, .nowhere, .unit⟩, ⟨.loop ⟨4⟩, .nowhere, .never⟩,
        ⟨.int 2, .nowhere, .i32⟩, ⟨.cond ⟨0⟩ ⟨5⟩ (some ⟨6⟩), .nowhere, .i32⟩,
        ⟨.block .root [.semi ⟨3⟩] (some ⟨7⟩), .nowhere, .i32⟩]⟩
      items := [.function
        { name := ⟨1⟩
          link := ⟨1⟩
          params := [⟨⟨2⟩, .bool, false, .nowhere⟩]
          ret := .i32
          body := some ⟨8⟩
          scope := .root
          span := .nowhere }] }

theorem pick_typed : pick.WellFormed ∧ pick.Annotated ∧
    EveryCall pick .standard (exitLaw pick) ∧
      ∃ target, lowerProgram pick .standard = .ok target ∧ target.Typed := by
  have formed : pick.WellFormed :=
    .of_initial rfl (by decide) ((NameTable.Made.initial.intern _).intern _) (by decide)
      (by decide +kernel)
  have annotated : pick.Annotated := .of_all (by decide) (by decide) (by decide)
  have calls : EveryCall pick .standard (exitLaw pick) := by
    intro alarm
    cbv
  have returned : ∃ target, lowerProgram pick .standard = .ok target := ⟨_, by cbv⟩
  obtain ⟨target, returned⟩ := returned
  exact ⟨formed, annotated, calls, target, returned,
    lowerProgram_typed formed annotated calls returned⟩

/-- `fn endless() -> i32 { return loop {} }` -/
def endless : Source where
  names := (NameTable.initial.intern "endless").2
  program :=
    { types := .initial
      scopes := .initial
      arena := ⟨#[⟨.block .root [] none, .nowhere, .unit⟩, ⟨.loop ⟨0⟩, .nowhere, .never⟩,
        ⟨.returnWith (some ⟨1⟩), .nowhere, .never⟩]⟩
      items := [.function
        { name := ⟨1⟩
          link := ⟨1⟩
          params := []
          ret := .i32
          body := some ⟨2⟩
          scope := .root
          span := .nowhere }] }

/-- A `return` does not give the placeholder another type: an endless loop is returned as a value of
type never, although the annotations agree and every other expression is typed. -/
theorem endless_untyped : endless.WellFormed ∧ endless.Annotated ∧
    EveryCall endless .standard (typedLaw endless) ∧
      ∃ target, lowerProgram endless .standard = .ok target ∧ ¬ target.Typed := by
  have returned : lowerProgram endless .standard =
      .ok ((Module.empty "main").addFunction ⟨"endless", [], .i32,
        #[⟨⟨0⟩, "entry", #[], some (.jump ⟨1⟩)⟩, ⟨⟨1⟩, "loop.body.1", #[], some (.jump ⟨1⟩)⟩,
          ⟨⟨2⟩, "loop.exit.2", #[], some (.ret (some (.undef .never)))⟩]⟩ rfl) := by cbv
  refine ⟨.of_initial rfl (by decide) (NameTable.Made.initial.intern _) (by decide)
    (by decide +kernel), .of_all (by decide) (by decide) (by decide), fun alarm => by cbv, _,
    returned, fun typed => ?_⟩
  obtain ⟨result, same, promised⟩ := (typed ⟨0⟩ _ rfl ⟨2⟩ _ rfl).exit rfl _ rfl
  cases same
  cases promised

end TreeLowering.Lowering
