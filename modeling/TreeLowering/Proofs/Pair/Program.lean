/-
This file puts a monitored run of a whole program beside the plain run. Both declare the same things
first; after that they go from body to body, and meet again after each of them with the same state.
-/

import TreeLowering.Proofs.Pair.Diagonal
import TreeLowering.Proofs.Restore

namespace TreeLowering.Lowering

open TreeLowering.Ir TreeLowering.Tree Relation

/-- A body looks the name up from the scope. -/
def Source.LooksUp (source : Source) (scope : ScopeId) (name : Name) : Prop :=
  ∃ decl ∈ source.program.functions, ∃ body ∈ decl.body, ∃ expr span ty,
    source.program.Meets decl.scope body scope expr ∧
      source.program.arena.get? expr = some ⟨.path [name], span, ty⟩

/-- Everything that is declared before the first body is lowered. -/
def declareProgram (source : Source) : LowerM (List (FunctionDecl × FuncId)) := do
  source.program.items.forM (declareItem source)
  source.program.functions.mapM fun decl => do
    return (decl, ← declareFn source decl)

theorem Monitor.lowerItems_eq (monitor : Monitor) (source : Source) :
    monitor.lowerItems source = declareProgram source >>= fun declared =>
      declared.forM fun (decl, func) => monitor.lowerFunction source decl func := by
  unfold Monitor.lowerItems declareProgram
  rw [bind_assoc]

theorem ensures_declareProgram (source : Source) (context : Context) :
    Ensures (declareProgram source) context fun declared after =>
      Quietly context after ∧ declared.map Prod.fst = source.program.functions := by
  unfold declareProgram
  rw [ensures_bind]
  refine (ensures_declareItems source).mono fun _ first quietly => ?_
  exact (ensures_declareAll source _).mono fun declared second ⟨quietly', same, _⟩ =>
    ⟨quietly.trans quietly', same⟩

namespace Diagonal

variable {diagonal : Diagonal} {source : Source} {monitor : Monitor}

/-- The runs meet between two bodies. -/
structure Meets (diagonal : Diagonal) (context context' : Context) : Prop where
  same : context' = context
  kept : diagonal.invariant context.work
  outside : context.env.scopes = []

/-- How a monitored run of a program ends beside the plain run. -/
def Concludes (diagonal : Diagonal) : Except Error Module → Except Error Module → Prop
  | .ok target, .ok target' =>
    target' = target ∧ ∃ work, diagonal.invariant work ∧ work.builder.target = target
  | .error cause, .error cause' => diagonal.excused cause cause' ∨ diagonal.halts cause
  | .error cause, .ok _ => diagonal.halts cause
  | .ok _, .error _ => False

/-- What a diagonal asks of the bodies of a program. -/
structure Suits (diagonal : Diagonal) (monitor : Monitor) (source : Source) : Prop where
  watches : ∀ taken, (diagonal.pairing taken).Watches monitor .idle source source taken
  fits : ∀ decl ∈ source.program.functions, ∀ body ∈ decl.body, ∀ expr node,
    ReflTransGen source.program.arena.Contains body expr →
    source.program.arena.get? expr = some node →
    (diagonal.pairing (source.program.addressTaken body)).Fits source.program node.kind
  looks : ∀ decl ∈ source.program.functions, ∀ body ∈ decl.body, ∀ scope expr,
    source.program.Meets decl.scope body scope expr → ∀ name span ty,
    source.program.arena.get? expr = some ⟨.path [name], span, ty⟩ → diagonal.looksUp scope name

namespace Steady

variable (steady : diagonal.Steady source)

include steady

/-- Before its first block is entered, a function is set up alike in both runs. -/
theorem built {α β : Type} {taken : List Name} (context : Context) {action : BuildM α}
    {next next' : α → LowerM β} {post : β → Context → β → Context → Prop} {known : α → Prop}
    (returns : Returns action context.builder fun result after =>
      diagonal.Keeps context.work { context.work with builder := after } ∧ known result)
    (rest : ∀ result builder, diagonal.Keeps context.work { context.work with builder } →
      known result → (diagonal.pairing taken).Outcome post (next result { context with builder })
        (next' result { context with builder })) :
    (diagonal.pairing taken).Outcome post ((build action >>= next) context)
      ((build action >>= next') context) := by
  have step : (diagonal.pairing taken).Outcome (fun result after result' after' =>
      result' = result ∧ after' = after ∧ known result ∧ ∃ builder,
        after = { context with builder } ∧
          diagonal.Keeps context.work { context.work with builder })
      (build action context) (build action context) := by
    obtain ⟨builder, env, memo, strings, scope⟩ := context
    simp only [build]
    cases ended : action builder with
    | ok result after =>
      obtain ⟨kept, answered⟩ := returns result after ended
      exact ⟨rfl, rfl, answered, after, rfl, kept⟩
    | error cause after => exact .inl (steady.pardons cause)
  refine step.bind ?_
  rintro result _ _ _ ⟨rfl, rfl, answered, builder, rfl, kept⟩
  exact rest _ builder kept answered

/-- A body is lowered alike in both runs. -/
theorem lowerBody (formed : source.WellFormed) {taken : List Name}
    (watches : (diagonal.pairing taken).Watches monitor .idle source source taken)
    {decl : FunctionDecl} {body : ExprId} (complete : source.Complete body)
    (fits : ∀ expr node, ReflTransGen source.program.arena.Contains body expr →
      source.program.arena.get? expr = some node →
      (diagonal.pairing taken).Fits source.program node.kind)
    (looks : ∀ scope expr, source.program.Meets decl.scope body scope expr → ∀ name span ty,
      source.program.arena.get? expr = some ⟨.path [name], span, ty⟩ → diagonal.looksUp scope name)
    (func : FuncId) (ret : Ty) {context : Context} (kept : diagonal.invariant context.work)
    (admits : diagonal.Admits context.work ret) (outside : context.env.scopes = []) :
    (diagonal.pairing taken).Outcome
      (fun _ after _ after' => after' = after ∧ diagonal.invariant after.work)
      ((inFunction ret do
        inScope decl.scope do
          monitor.bindParams source taken func 0 decl.params
          thenLive () (monitor.lowerExpr source taken body) (finishBody ret)) context)
      ((inFunction ret do
        inScope decl.scope do
          Monitor.idle.bindParams source taken func 0 decl.params
          thenLive () (Monitor.idle.lowerExpr source taken body) (finishBody ret)) context) := by
  have covers : (diagonal.pairing taken).Covers source source.program.arena
      (source.program.Meets decl.scope body) := by
    refine ⟨fun {_ expr} met => ?_, fun {scope expr} => looks scope expr⟩
    obtain ⟨node, found⟩ := Option.isSome_iff_exists.1 (complete expr met.reached)
    exact ⟨node, found, found, fits expr node met.reached found,
      fun part member => met.part found member⟩
  have params : ∀ {work work'}, (diagonal.pairing taken).holds work work' →
      (diagonal.pairing taken).SameParams work work' (work.builder.target.getFunction func)
        (work'.builder.target.getFunction func) := by
    rintro _ work ⟨rfl, invariant⟩
    cases found : work.builder.target.getFunction func with
    | ok function => exact fun position => ⟨rfl, (steady.serves invariant found).params position⟩
    | error cause => exact steady.pardons _
  have rules : (diagonal.pairing taken).Rules context.scope context context := by
    refine ⟨⟨rfl, kept⟩, rfl, rfl, rfl, fun table member => ?_⟩
    rw [outside] at member
    cases member
  have paired := @Pairing.Covers.body _ source source.program.arena source.program.items monitor
    .idle taken func func context.scope context context (steady.pairing taken) watches params _ decl
    ret body covers formed.acyclic formed.acyclic .body admits
  refine (paired rules).mono fun _ after _ after' ⟨rules', _⟩ => ⟨?_, rules'.holds.2⟩
  exact same_of_rules rules'

/-- The runs meet again after a body. -/
theorem lowerFunction (formed : source.WellFormed) (suits : Suits diagonal monitor source)
    {decl : FunctionDecl} (listed : decl ∈ source.program.functions) (func : FuncId)
    {context : Context} (kept : diagonal.invariant context.work)
    (outside : context.env.scopes = []) :
    (diagonal.pairing []).Outcome (fun _ after _ after' => diagonal.Meets after after')
      (monitor.lowerFunction source decl func context)
      (Lowering.lowerFunction source decl func context) := by
  have paired : (diagonal.pairing []).Outcome
      (fun _ after _ after' => after' = after ∧ diagonal.invariant after.work)
      (monitor.lowerFunction source decl func context)
      (Lowering.lowerFunction source decl func context) := by
    rw [← Monitor.silent_idle.lowerFunction]
    unfold Monitor.lowerFunction
    cases given : decl.body with
    | none => exact ⟨rfl, kept⟩
    | some body =>
      refine steady.built context ((steady.starts kept).mono fun _ _ kept => ⟨kept, trivial⟩)
        fun entry builder kept _ => ?_
      refine steady.built _ (Build.returns_ask fun function found =>
        ⟨⟨kept.invariant, fun _ => id⟩, (steady.serves kept.invariant found).ret⟩)
        fun function builder kept admits => ?_
      refine steady.built _ ((steady.moves kept.invariant).mono fun _ _ kept => ⟨kept, trivial⟩)
        fun _ builder kept' _ => ?_
      exact steady.lowerBody formed (suits.watches _) (formed.found decl listed body given)
        (suits.fits decl listed body given) (suits.looks decl listed body given) func function.ret
        kept'.invariant (kept'.sound _ (kept.sound _ admits)) outside
  have restores := restores_lowerFunction source decl func context
  cases ended : monitor.lowerFunction source decl func context <;>
    cases ended' : Lowering.lowerFunction source decl func context <;>
    rw [ended, ended'] at paired
  · rw [ended'] at restores
    obtain ⟨rfl, kept⟩ := paired
    exact ⟨rfl, kept, by rw [restores.1, outside]⟩
  all_goals exact paired

/-- Along the bodies, the runs meet again and again. -/
theorem lowerFunctions (formed : source.WellFormed) (suits : Suits diagonal monitor source)
    {declared : List (FunctionDecl × FuncId)}
    (listed : ∀ pair ∈ declared, pair.1 ∈ source.program.functions) {context : Context}
    (kept : diagonal.invariant context.work) (outside : context.env.scopes = []) :
    (diagonal.pairing []).Outcome (fun _ after _ after' => diagonal.Meets after after')
      ((declared.forM fun (decl, func) => monitor.lowerFunction source decl func : LowerM _) context)
      ((declared.forM fun (decl, func) => Lowering.lowerFunction source decl func : LowerM _)
        context) := by
  induction declared generalizing context with
  | nil => exact ⟨rfl, kept, outside⟩
  | cons pair rest inductionHypothesis =>
    refine (steady.lowerFunction formed suits (listed pair List.mem_cons_self) pair.2 kept
      outside).bind ?_
    rintro _ after _ _ ⟨rfl, kept', outside'⟩
    exact inductionHypothesis (fun pair member => listed pair (List.mem_cons_of_mem _ member)) kept'
      outside'

section Signatures

variable (declares : ∀ {work : Work} {name : String} {params : List Ir.Param} {ret : Ty},
  diagonal.invariant work →
    Returns (Build.declare fun target => target.declareFunction name params ret) work.builder
      fun _ after => diagonal.invariant { work with builder := after })

include declares

/-- A signature is declared when all its types are mapped. -/
theorem returns_declareFn (decl : FunctionDecl) {context : Context}
    (invariant : diagonal.invariant context.work) :
    Returns (declareFn source decl) context fun _ after => diagonal.invariant after.work := by
  have params : Returns (decl.params.mapM fun param => do
      return Ir.Param.mk (source.names.text param.name) (← lowerType source param.ty)) context
      fun _ after => diagonal.invariant after.work := by
    refine Returns.mapM (fun param _ state kept => ?_) invariant
    rw [returns_bind]
    exact (steady.returns_lowerType param.ty kept).mono fun _ _ kept' =>
      returns_pure.2 kept'.1.keeps.invariant
  unfold declareFn
  rw [returns_bind]
  refine params.mono fun _ first kept => ?_
  rw [returns_bind]
  refine (steady.returns_lowerType decl.ret kept).mono fun ret second kept' => ?_
  exact returns_build (declares kept'.1.keeps.invariant)

/-- The signatures are declared after everything else. -/
theorem returns_declareProgram {context : Context}
    (items : Returns (source.program.items.forM (declareItem source)) context fun _ after =>
      diagonal.invariant after.work) :
    Returns (declareProgram source) context fun _ after => diagonal.invariant after.work := by
  have signatures : ∀ first : Context, diagonal.invariant first.work →
      Returns (source.program.functions.mapM fun decl => do
        return (decl, ← declareFn source decl)) first fun _ after =>
          diagonal.invariant after.work := by
    refine fun first kept => Returns.mapM (fun decl _ state kept => ?_) kept
    rw [returns_bind]
    exact (steady.returns_declareFn declares decl kept).mono fun _ _ kept' => returns_pure.2 kept'
  unfold declareProgram
  rw [returns_bind]
  exact items.mono fun _ first kept => signatures first kept

end Signatures

/-- A monitored run of a program ends beside the plain run. -/
theorem lowerProgram (formed : source.WellFormed) (suits : Suits diagonal monitor source)
    {options : Options}
    (declares : Returns (declareProgram source) (Context.start options) fun _ after =>
      diagonal.invariant after.work) :
    diagonal.Concludes (monitor.lowerProgram source options)
      (Lowering.lowerProgram source options) := by
  have paired : (diagonal.pairing []).Outcome (fun _ after _ after' => diagonal.Meets after after')
      (monitor.lowerItems source (Context.start options))
      (Monitor.idle.lowerItems source (Context.start options)) := by
    rw [Monitor.lowerItems_eq, Monitor.lowerItems_eq]
    have both : (diagonal.pairing []).Outcome (fun declared after declared' after' =>
        declared' = declared ∧ diagonal.Meets after after' ∧
          declared.map Prod.fst = source.program.functions)
        (declareProgram source (Context.start options))
        (declareProgram source (Context.start options)) := by
      cases ended : declareProgram source (Context.start options) with
      | ok declared after =>
        obtain ⟨quietly, same⟩ := (ensures_declareProgram source _).of_ok ended
        exact ⟨rfl, ⟨rfl, declares declared after ended, by rw [quietly.env]; rfl⟩, same⟩
      | error cause after => exact .inl (steady.pardons cause)
    refine both.bind ?_
    rintro declared after _ _ ⟨rfl, ⟨rfl, kept, outside⟩, same⟩
    simp only [Monitor.silent_idle.lowerFunction]
    refine steady.lowerFunctions formed suits (fun pair member => ?_) kept outside
    rw [← same]
    exact List.mem_map_of_mem member
  rw [← Monitor.silent_idle.lowerProgram]
  unfold Monitor.lowerProgram
  cases ended : monitor.lowerItems source (Context.start options) <;>
    cases ended' : Monitor.idle.lowerItems source (Context.start options) <;>
    rw [ended, ended'] at paired
  · obtain ⟨rfl, kept, _⟩ := paired
    exact ⟨rfl, _, kept, rfl⟩
  all_goals exact paired

end Steady

end Diagonal

end TreeLowering.Lowering
