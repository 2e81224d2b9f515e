/-
This file proves that lowering never fails by a mistake of its own. On a well-formed program in which
no two functions with a body share a link name, every error blames something in the program: no
instruction is emitted without a cursor, no closed or missing block is used, no struct is declared
with two field lists, and the bounds on depth are never reached.
-/

import TreeLowering.Proofs.Flow.Program
import TreeLowering.Proofs.Regime.Expr
import TreeLowering.Proofs.Types.Translation

namespace TreeLowering.Lowering

open TreeLowering.Ir TreeLowering.Tree Relation

/-! ### The regime of remembered types -/

/-- What is remembered about types is right between any two steps, and no error blames the tree. -/
def Regime.truthful (source : Source) : Regime where
  holds builder memo := TypeState.Truthful source ⟨memo, builder.target⟩ ∧ memo.pending = []
  excused cause := cause.isFault = false
  frames _ := True
  mine _ := True
  own _ := True
  free _ := True
  mapped ty mapped := mapped = source.translation ty
  yields _ _ := True
  joins _ _ := True
  answers _ := True
  returns _ := True

theorem TypeState.Truthful.of_types {source : Source} {memo : TypeMemo} {target target' : Module}
    (truthful : TypeState.Truthful source ⟨memo, target⟩) (same : target'.types = target.types) :
    TypeState.Truthful source ⟨memo, target'⟩ := by
  refine ⟨truthful.known, truthful.pending, truthful.distinct, fun name fields declared => ?_⟩
  exact truthful.declared name fields ((Module.structFields?_of_types same name).symm.trans declared)

/-- Nothing is remembered at the start. -/
theorem TypeState.Truthful.start (source : Source) (name : String) :
    TypeState.Truthful source ⟨.empty, Module.empty name⟩ :=
  ⟨nofun, nofun, .nil, nofun⟩

namespace Regime.truthful

variable {source : Source} {builder after : Builder} {memo : TypeMemo}

theorem of_types (holds : (Regime.truthful source).holds builder memo)
    (same : after.target.types = builder.target.types) :
    (Regime.truthful source).holds after memo :=
  ⟨holds.1.of_types same, holds.2⟩

theorem returns {α : Type} {live : Bool} {action : BuildM α}
    (holds : (Regime.truthful source).holds builder memo) (stays : Build.Stays live action) :
    Returns action builder fun _ after => (Regime.truthful source).holds after memo :=
  fun _ _ returned => of_types holds ((stays builder).of_ok returned).types

theorem steady (formed : source.WellFormed) : (Regime.truthful source).Steady source where
  pardons _ plain := Error.isFault_of_isPlain plain
  current _ _ := trivial
  here _ _ := trivial
  emits holds _ := returns holds (Build.stays_emitTemp _ _)
  reserves holds := returns holds (Build.stays_alloca _ _)
  stores holds := returns holds (Build.stays_store _ _)
  pins holds := returns holds (Build.stays_pin _)
  opens holds := (returns holds (Build.stays_newBlock _)).mono fun _ _ kept =>
    ⟨kept, trivial, trivial⟩
  moves holds _ _ := fun _ _ returned =>
    of_types holds ((Build.ends_positionAt _ _ _).of_ok returned).2
  closes holds _ _ := fun _ _ returned =>
    of_types holds ((Build.ends_terminate _ _).of_ok returned).2
  declares holds := returns holds (Build.stays_declareFunction _ _ _)
  defines holds := returns holds (Build.stays_declareGlobal _)
  maps ty holds := (ends_mapType formed.mappable holds.1 holds.2 ty).mono (fun _ _ ended => ended)
    fun _ _ impossible => impossible.elim
  loops _ _ _ := trivial
  targets _ _ := trivial
  answers _ _ := trivial

theorem fits (kind : ExprKind) (ty : TypeId) : (Regime.truthful source).Fits kind ty :=
  .of_trivial (fun _ _ => trivial) (fun _ => trivial) (fun _ _ => rfl) kind ty

end Regime.truthful

/-! ### How deep lowering goes -/

section Depth

variable {source : Source}

/-- How many expressions an expression is made of, itself included. -/
noncomputable def Source.exprRank (source : Source) (expr : ExprId) : Nat :=
  rank source.program.arena.Contains ExprId.mk source.program.arena.size expr

/-- Everything below an expression exists. -/
def Source.Complete (source : Source) (expr : ExprId) : Prop :=
  ∀ part, ReflTransGen source.program.arena.Contains expr part →
    (source.program.arena.get? part).isSome = true

theorem Source.Complete.part {whole part : ExprId} (complete : source.Complete whole)
    (contains : source.program.arena.Contains whole part) : source.Complete part :=
  fun other below => complete other (.head contains below)

theorem inside_of_get? {expr : ExprId} {node : Node}
    (found : source.program.arena.get? expr = some node) :
    expr.index < source.program.arena.size :=
  (Array.getElem?_eq_some_iff.1 found).1

/-- An expression is met at most twice on the way down, once for its value and once for its place;
the second time is the way that does not come back to it. -/
theorem truthful_within (formed : source.WellFormed) (taken : List Name) (fuel : Nat)
    {expr : ExprId} {node : Node} (found : source.program.arena.get? expr = some node)
    (complete : source.Complete expr) :
    (2 * source.exprRank expr ≤ fuel → (Regime.truthful source).Lowers
      ⟨source, taken, lowerWithin source taken fuel, placeWithin source taken fuel⟩ expr) ∧
    (2 * source.exprRank expr ≤ fuel + 1 →
      (node.kind.isPlace = true → ∀ context, Keeps (Regime.truthful source) id
        (placeWithin source taken fuel expr) context fun _ _ => True) ∧
      (node.kind.isPlace = false → ∀ context, Keeps (Regime.truthful source) id
        (lowerWithin source taken fuel expr) context Finished)) := by
  have steady := Regime.truthful.steady formed
  have positive : 0 < source.exprRank expr := rank_pos (inside_of_get? found)
  induction fuel generalizing expr node with
  | zero => exact ⟨fun enough => by omega, fun enough => by omega⟩
  | succ fuel inductionHypothesis =>
    have missing : source.program.arena.get? expr = none →
        (Regime.truthful source).excused .malformedTree := fun none => by
      rw [found] at none
      cases none
    have parts : 2 * source.exprRank expr ≤ fuel + 2 → ∀ other,
        source.program.arena.get? expr = some other → ∀ part ∈ other.kind.children,
          (Regime.truthful source).Lowers
            ⟨source, taken, lowerWithin source taken fuel, placeWithin source taken fuel⟩ part := by
      intro enough other stored part member
      have contains : source.program.arena.Contains expr part := ⟨other, stored, member⟩
      have less : source.exprRank part < source.exprRank expr :=
        rank_lt (formed.acyclic _) (inside_of_get? found) contains
      obtain ⟨inner, found'⟩ := Option.isSome_iff_exists.1 ((complete.part contains) part .refl)
      exact (inductionHypothesis found' (complete.part contains)
        (rank_pos (inside_of_get? found'))).1 (by omega)
    refine ⟨fun enough => ?_, fun enough => ⟨fun place context => ?_, fun plain context => ?_⟩⟩
    · obtain ⟨places, values⟩ := (inductionHypothesis found complete positive).2 enough
      refine ⟨missing, fun context => ?_, fun context => ?_⟩
      · refine Keeps.mono ?_ fun value _ finished => ⟨fun _ => trivial, finished⟩
        refine steady.lowerNode missing (parts (by omega))
          (fun node _ => Regime.truthful.fits node.kind node.ty) fun other stored place => ?_
        cases found.symm.trans stored
        exact places place
      · refine steady.lowerNodePlace missing (parts (by omega)) fun other stored plain context => ?_
        cases found.symm.trans stored
        exact (values plain context).mono fun _ _ _ => trivial
    · refine steady.lowerNodePlace missing (parts enough) fun other stored plain => ?_
      cases found.symm.trans stored
      rw [place] at plain
      cases plain
    · refine steady.lowerNode missing (parts enough)
        (fun node _ => Regime.truthful.fits node.kind node.ty) fun other stored place => ?_
      cases found.symm.trans stored
      rw [plain] at place
      cases place

theorem truthful_lowerExpr (formed : source.WellFormed) (taken : List Name) {expr : ExprId}
    (complete : source.Complete expr) (context : Context) :
    Keeps (Regime.truthful source) id (lowerExpr source taken expr) context
      ((Regime.truthful source).Gives expr) := by
  obtain ⟨node, found⟩ := Option.isSome_iff_exists.1 (complete expr .refl)
  refine ((truthful_within formed taken source.exprDepth found complete).1 ?_).expr context
  have most : source.exprRank expr ≤ source.program.arena.size := rank_le expr
  unfold Source.exprDepth
  omega

end Depth

/-! ### Whole programs -/

section Programs

variable {source : Source}

theorem truthful_lowerFunction (formed : source.WellFormed) {decl : FunctionDecl}
    (listed : decl ∈ source.program.functions) (func : FuncId) (context : Context) :
    Keeps (Regime.truthful source) id (lowerFunction source decl func) context
      fun _ _ => True := by
  have steady := Regime.truthful.steady formed
  unfold lowerFunction
  split
  · exact .pure trivial
  · next body given =>
    have entered : Keeps (Regime.truthful source) id (build (Build.ensureEntry func)) context
        fun _ _ => True :=
      (steady.step (fun _ => True) (Build.stays_ensureEntry func) fun holds =>
        (Regime.truthful.returns holds (Build.stays_ensureEntry func)).mono
          fun _ _ kept => ⟨kept, trivial⟩).mono fun _ _ _ => trivial
    refine entered.bind fun entry _ _ => ?_
    refine (steady.ask (Build.fair_getFunction func)).bind fun function _ _ => ?_
    refine (steady.positionAt trivial trivial).bind fun _ _ _ => ?_
    exact steady.body trivial (truthful_lowerExpr formed _ (formed.found decl listed body given))
      fun _ _ => trivial

/-- No run fails because the tree is too deep or a struct has two field lists. -/
theorem truthful_lowerItems (formed : source.WellFormed) (context : Context) :
    Keeps (Regime.truthful source) id (lowerItems source) context fun _ _ => True := by
  refine (Regime.truthful.steady formed).declarations fun declared after same => ?_
  refine Keeps.forM fun pair member context => ?_
  refine truthful_lowerFunction formed ?_ pair.2 context
  rw [← same]
  exact List.mem_map_of_mem member

/-- Different link names of one table have different texts. -/
theorem Source.WellFormed.bodiesApart (formed : source.WellFormed)
    (apart : source.program.functions.Pairwise fun first second =>
      first.body.isSome = true → second.body.isSome = true → first.link ≠ second.link) :
    source.BodiesApart := by
  refine List.Pairwise.imp_of_mem (fun first second differ given given' same => ?_) apart
  exact differ given given'
    (formed.table.eq_of_text (formed.links _ first) (formed.links _ second) same)

/-- When a well-formed program with one body for each link name is not accepted, the error is none
of those that only lowering itself could cause: no step is taken without an open block or outside
of a function, no closed or unknown block and no unknown function is used, and no struct is declared
in two ways. -/
theorem lowerProgram_error_blames_program {options : Options} {cause : Error}
    (formed : source.WellFormed)
    (apart : source.program.functions.Pairwise fun first second =>
      first.body.isSome = true → second.body.isSome = true → first.link ≠ second.link)
    (failed : lowerProgram source options = .error cause) :
    cause.isMisstep = false ∧ cause.isFault = false := by
  cases run : lowerItems source (Context.start options) with
  | ok result context =>
    rw [lowerProgram, run] at failed
    cases failed
  | error cause' context =>
    rw [lowerProgram, run] at failed
    cases failed
    constructor
    · rcases (ends_lowerItemsBy (soundBodies_lowerExpr source) source options).of_error run with
        harmless | ⟨_, twice⟩
      · exact harmless
      · exact absurd (formed.bodiesApart apart) twice
    · have rules : (Regime.truthful source).Rules (Context.start options) :=
        ⟨⟨.start source options.moduleName, rfl⟩, trivial⟩
      exact ((truthful_lowerItems formed (Context.start options) rules).of_error run).2

end Programs

/-- `fn stray(flag: bool) -> i32 { if flag { return 1 } else { break } }` -/
def stray : Source where
  names := (((NameTable.initial.intern "stray").2).intern "flag").2
  program :=
    { types := .initial
      scopes := .initial
      arena := ⟨#[⟨.path [⟨2⟩], .nowhere, .bool⟩, ⟨.int 1, .nowhere, .i32⟩,
        ⟨.returnWith (some ⟨1⟩), .nowhere, .never⟩, ⟨.breakLoop, .nowhere, .never⟩,
        ⟨.cond ⟨0⟩ ⟨2⟩ (some ⟨3⟩), .nowhere, .i32⟩]⟩
      items := [.function
        { name := ⟨1⟩
          link := ⟨1⟩
          params := [⟨⟨2⟩, .bool, false, .nowhere⟩]
          ret := .i32
          body := some ⟨4⟩
          scope := .root
          span := .nowhere }] }

theorem stray_wellFormed : stray.WellFormed :=
  .of_initial rfl (by decide) ((NameTable.Made.initial.intern _).intern _) (by decide)
    (by decide +kernel)

theorem stray_blamed :
    lowerProgram stray .standard = .error (.outsideLoop .leave .nowhere) ∧
      Error.isMisstep (.outsideLoop .leave .nowhere) = false ∧
        Error.isFault (.outsideLoop .leave .nowhere) = false := by
  have failed : lowerProgram stray .standard = .error (.outsideLoop .leave .nowhere) := by cbv
  exact ⟨failed, lowerProgram_error_blames_program stray_wellFormed (List.pairwise_singleton _ _)
    failed⟩

end TreeLowering.Lowering
