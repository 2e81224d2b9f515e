/-
This file follows one function through two runs that declare the same. Between two bodies a run keeps
nothing that the next one could see: the builder starts afresh when it enters a function, the
environment is empty, and what is declared is what the items say. So what a body is lowered to does
not depend on the run, nor on how far it has come.
-/

import TreeLowering.Proofs.Independence.Body

namespace TreeLowering.Lowering

open TreeLowering.Ir TreeLowering.Tree Relation

/-! ### Self-contained programs -/

/-- A program whose items can be told apart, whose bodies have no string literals, and whose bodies
use only functions that its items declare. -/
structure Source.SelfContained (source : Source) : Prop where
  formed : source.WellFormed
  links : (source.program.functions.map fun decl => source.names.text decl.link).Nodup
  names : (source.program.consts.map fun decl => source.names.text decl.name).Nodup
  texts : ∀ decl ∈ source.program.functions, ∀ body ∈ decl.body, ∀ expr node,
    ReflTransGen source.program.arena.Contains body expr →
    source.program.arena.get? expr = some node → ∀ text, node.kind ≠ .str text
  symbols : ∀ scope name, source.LooksUp scope name → ∀ link ty,
    source.program.scopes.resolve? scope name .value = some (.function link ty) →
      ∃ decl ∈ source.program.functions, decl.link = link

/-! ### Between two bodies -/

/-- The state between two bodies of a run. -/
structure Between (source : Source) (options : Options) (context : Context) : Prop where
  furnished : Furnished source options context.work
  resting : Resting context
  scope : context.scope = .root

/-- The function is the next one of the run that is given a body. -/
structure Awaits (source : Source) (options : Options) (decl : FunctionDecl) (func : FuncId)
    (context : Context) : Prop where
  between : Between source options context
  listed : source.program.functions[func.index]? = some decl
  bare : context.builder.target.function? func = some (source.signature decl)

section Entering

variable {source : Source} {options : Options} {decl : FunctionDecl} {func : FuncId}
  {context : Context}

/-- The function that waits was not entered before. -/
theorem Awaits.away (awaits : Awaits source options decl func context) :
    context.builder.current ≠ some func :=
  awaits.between.resting.away awaits.bare rfl

/-- The state in which the body of a function begins. -/
def Context.entering (context : Context) (func : FuncId) : Context :=
  { context with builder := (Moment.first context.builder func).builder }

/-- A body is lowered from the first moment of its function. -/
theorem Awaits.lowerFunction_eq (awaits : Awaits source options decl func context) {body : ExprId}
    (given : decl.body = some body) :
    lowerFunction source decl func context =
      (inFunction (source.signature decl).ret do
        inScope decl.scope do
          bindParams source (source.program.addressTaken body) func 0 decl.params
          thenLive () (lowerExpr source (source.program.addressTaken body) body)
            (finishBody (source.signature decl).ret))
        (context.entering func) := by
  have bare : (source.signature decl).isDeclaration = true := rfl
  have stored : (context.builder.target.modifyFunction func Function.withEntry).function? func =
      some (source.signature decl).withEntry := by
    rw [Module.function?_modifyFunction, if_pos rfl, awaits.bare]
    rfl
  have again : (context.builder.target.modifyFunction func Function.withEntry).modifyFunction func
      Function.withEntry = context.builder.target.modifyFunction func Function.withEntry := by
    refine Module.modifyFunction_of_same stored ?_
    rw [Function.withEntry, (labelled_withEntry bare).started]
    rfl
  have valid := first_valid awaits.away awaits.bare bare
  have start := first_builder awaits.away awaits.bare
  have opened : (context.builder.target.modifyFunction func Function.withEntry).checkOpen func
      Function.entryId = .ok () := by
    have opened := valid.checkOpen (by rw [start]) (valid.cursor _ (by rw [start])).2
    rwa [start] at opened
  -- the entry block is made first; moving to it makes no other
  let entered : Builder := { context.builder with
    target := context.builder.target.modifyFunction func Function.withEntry }
  have read : ∀ {builder : Builder} {function : Function},
      builder.target.function? func = some function →
      Build.ask (fun target => target.getFunction func) builder = .ok function builder := by
    intro builder function found
    rw [Build.ask, Module.getFunction_of_found found]
  have ensured : Build.ensureEntry func context.builder = .ok Function.entryId entered := by
    rw [Build.ensureEntry, run_bind (read awaits.bare)]
    rfl
  have ensured' : Build.ensureEntry func entered = .ok Function.entryId entered := by
    rw [Build.ensureEntry, run_bind (read stored)]
    change EStateM.Result.ok _ { entered with
      target := entered.target.modifyFunction func Function.withEntry } = _
    rw [again]
  have positioned : Build.positionAt func Function.entryId entered =
      .ok () (Moment.first context.builder func).builder := by
    rw [Build.positionAt, run_bind ensured', run_bind (by rw [Build.ask, opened])]
    rfl
  unfold lowerFunction
  rw [given]
  dsimp only
  rw [run_bind (build_ok ensured), run_bind (build_ok (read stored)), run_bind (build_ok positioned)]
  rfl

end Entering

/-! ### One body in two runs -/

section Pairs

variable {source : Source} {arena : Arena} {items : List Item} {options : Options}
  {decl : FunctionDecl} {func func' : FuncId} {context context' : Context}

/-- Both programs have the body, with the same expressions. -/
def Source.Shares (source : Source) (arena : Arena) (decl : FunctionDecl) : Prop :=
  ∀ body ∈ decl.body, ∀ expr, ReflTransGen source.program.arena.Contains body expr →
    arena.get? expr = source.program.arena.get? expr

/-- Whatever a body meets, both programs have it. -/
theorem Source.SelfContained.covers (self : source.SelfContained)
    (shares : source.Shares arena decl) (listed : decl ∈ source.program.functions) {body : ExprId}
    (given : decl.body = some body) :
    (besides source (source.swap arena items) options func func').Covers source arena
      (source.program.Meets decl.scope body) := by
  refine ⟨fun {_ expr} met => ?_, fun {scope expr} met name span ty stored link ty' resolved => ?_⟩
  · obtain ⟨node, stored⟩ := Option.isSome_iff_exists.1
      (self.formed.found decl listed body given expr met.reached)
    refine ⟨node, stored, (shares body given expr met.reached).trans stored,
      ⟨fun text string => ?_, fun _ _ _ _ _ _ _ => trivial, fun _ _ _ _ _ _ _ _ _ => trivial⟩,
      fun part member => met.part stored member⟩
    exact absurd string (self.texts decl listed body given expr node met.reached stored text)
  · exact self.symbols scope name ⟨decl, listed, body, given, expr, span, ty, met, stored⟩ link ty'
      resolved

variable (same : source.DeclaresSame arena items)
  (awaits : Awaits source options decl func context)
  (awaits' : Awaits (source.swap arena items) options decl func' context')

include awaits awaits'

/-- When a function is entered, both runs start it alike. -/
theorem Awaits.alike :
    Alike source (source.swap arena items) options func func' (context.entering func).work
      (context'.entering func').work := by
  have start := first_builder awaits.away awaits.bare
  have start' := first_builder awaits'.away awaits'.bare
  rw [source.signature_swap] at start'
  have chosen := awaits.between.furnished.chosen
  have chosen' := awaits'.between.furnished.chosen
  unfold Context.entering Context.work
  rw [start, start']
  refine ⟨?_, ?_, ⟨(source.signature decl).withEntry, ?_, ?_⟩, rfl, ?_, ?_⟩
  · exact (awaits.between.furnished.modifyFunction func Function.bare_withEntry).built rfl rfl rfl rfl
  · exact (awaits'.between.furnished.modifyFunction func' Function.bare_withEntry).built rfl rfl rfl
      rfl
  · rw [Module.function?_modifyFunction, if_pos rfl]
    exact congrArg (Option.map _) awaits.bare
  · rw [Module.function?_modifyFunction, if_pos rfl]
    refine (congrArg (Option.map _) awaits'.bare).trans ?_
    rw [source.signature_swap]
    rfl
  · rintro _ ⟨⟩
    rfl
  · have equal : context'.builder.options = context.builder.options := chosen'.trans chosen.symm
    simp only [equal, Option.map_some]

/-- The function that waits has the same parameters in both runs. -/
theorem Awaits.sameParams {work work' : Work}
    (alike : Alike source (source.swap arena items) options func func' work work') :
    (besides source (source.swap arena items) options func func').SameParams work work'
      (work.builder.target.getFunction func) (work'.builder.target.getFunction func') := by
  obtain ⟨function, stored, stored'⟩ := alike.own
  obtain ⟨known, here, bare, within⟩ := alike.furnished.function? awaits.listed
  obtain ⟨known', here', bare', within'⟩ := alike.furnished'.function? awaits'.listed
  cases stored.symm.trans here
  cases stored'.symm.trans here'
  rw [Module.getFunction_of_found stored, Module.getFunction_of_found stored']
  rw [← bare] at within
  rw [← bare'] at within'
  refine fun position => ⟨rfl, fun value read => ?_⟩
  obtain ⟨param, given, rfl⟩ := Option.map_eq_some_iff.1 read
  have inside := List.mem_of_getElem? given
  exact ⟨(Function.signature_within.1 within).1 param inside,
    (Function.signature_within.1 within').1 param inside⟩

/-- The result type of the function that waits is known to both runs. -/
theorem Awaits.admits {work work' : Work}
    (alike : Alike source (source.swap arena items) options func func' work work') :
    (besides source (source.swap arena items) options func func').Admits work work'
      (source.signature decl).ret := by
  obtain ⟨_, _, _, within⟩ := alike.furnished.function? awaits.listed
  obtain ⟨_, _, _, within'⟩ := alike.furnished'.function? awaits'.listed
  rw [source.signature_swap] at within'
  exact ⟨(Function.signature_within.1 within).2, (Function.signature_within.1 within').2⟩

/-- When a function is entered, no name is bound in either run. -/
theorem Awaits.rules :
    (besides source (source.swap arena items) options func func').Rules .root
      (context.entering func) (context'.entering func') := by
  have empty := awaits.between.resting.env
  refine ⟨awaits.alike awaits', awaits'.between.resting.env.trans empty.symm,
    awaits.between.scope, awaits'.between.scope, fun table member => ?_⟩
  change table ∈ context.env.scopes at member
  rw [empty] at member
  cases member

include same

/-- Both runs lower the body alike. -/
theorem Awaits.outcome (self : source.SelfContained) (shares : source.Shares arena decl) :
    (besides source (source.swap arena items) options func func').Outcome
      (fun _ after _ after' => ∃ function, after.builder.target.function? func = some function ∧
        after'.builder.target.function? func' = some function ∧
        Furnished source options after.work ∧
        Furnished (source.swap arena items) options after'.work)
      (lowerFunction source decl func context)
      (lowerFunction (source.swap arena items) decl func' context') := by
  have listed : decl ∈ source.program.functions := List.mem_of_getElem? awaits.listed
  cases given : decl.body with
  | none =>
    rw [lowerFunction_external given, lowerFunction_external given]
    refine ⟨source.signature decl, awaits.bare, ?_, awaits.between.furnished,
      awaits'.between.furnished⟩
    rw [← source.signature_swap arena items]
    exact awaits'.bare
  | some body =>
    have shared : Program.SameBody source.program (source.swap arena items).program body :=
      ⟨rfl, shares body given, same.formed.acyclic, same.formed'.acyclic⟩
    have steady := @Source.DeclaresSame.steady source arena items options func func' same
      (source.program.addressTaken body)
    have paired := @Pairing.Covers.body _ source arena items .idle .idle _ func func' .root
      (context.entering func) (context'.entering func') steady
      (steady.idle trivial fun _ => trivial) (awaits.sameParams awaits') _ decl _ body
      (self.covers shares listed given) self.formed.acyclic same.formed'.acyclic .body
      (awaits.admits awaits' (awaits.alike awaits')) (awaits.rules awaits')
    simp only [Monitor.silent_idle.bindParams, Monitor.silent_idle.lowerExpr] at paired
    rw [awaits.lowerFunction_eq given, awaits'.lowerFunction_eq given,
      source.signature_swap arena items,
      shared.addressTaken (self.formed.found decl listed body given)]
    refine paired.mono fun _ after _ after' kept => ?_
    obtain ⟨function, stored, stored'⟩ := kept.1.holds.own
    exact ⟨function, stored, stored', kept.1.holds.furnished, kept.1.holds.furnished'⟩

end Pairs

/-! ### What a body is lowered to -/

/-- At some point of some run, the body of a function is lowered to `function`. -/
def Source.Makes (source : Source) (options : Options) (decl : FunctionDecl) (function : Function) :
    Prop :=
  ∃ func context after, Awaits source options decl func context ∧
    lowerFunction source decl func context = .ok () after ∧
      after.builder.target.function? func = some function

section Makes

variable {source : Source} {arena : Arena} {items : List Item} {options : Options}
  {decl : FunctionDecl} {function function' : Function} {func func' : FuncId}
  {context context' after : Context}

/-- A body is lowered to the same function wherever it is lowered. -/
theorem Source.Makes.elsewhere (makes : source.Makes options decl function)
    (same : source.DeclaresSame arena items) (self : source.SelfContained)
    (shares : source.Shares arena decl)
    (awaits' : Awaits (source.swap arena items) options decl func' context') :
    ∃ after', lowerFunction (source.swap arena items) decl func' context' = .ok () after' ∧
      after'.builder.target.function? func' = some function := by
  obtain ⟨func, context, after, awaits, returned, made⟩ := makes
  have outcome := awaits.outcome same awaits' self shares
  rw [returned] at outcome
  cases returned' : lowerFunction (source.swap arena items) decl func' context' with
  | error cause after' =>
    rw [returned'] at outcome
    exact outcome.elim
  | ok result' after' =>
    rw [returned'] at outcome
    obtain ⟨other, here, here', _⟩ := outcome
    cases made.symm.trans here
    exact ⟨after', rfl, here'⟩

/-- Programs that share a body make the same of it. -/
theorem Source.Makes.unique (makes : source.Makes options decl function)
    (makes' : (source.swap arena items).Makes options decl function')
    (same : source.DeclaresSame arena items) (self : source.SelfContained)
    (shares : source.Shares arena decl) : function' = function := by
  obtain ⟨func', context', after', awaits', returned', made'⟩ := makes'
  obtain ⟨after'', returned'', made''⟩ := makes.elsewhere same self shares awaits'
  cases returned'.symm.trans returned''
  exact Option.some.inj (made'.symm.trans made'')

/-- A program declares the same as itself. -/
theorem Source.SelfContained.same (self : source.SelfContained) :
    source.DeclaresSame source.program.arena source.program.items :=
  ⟨self.formed, self.formed, .refl _, .refl _, self.links, self.names⟩

/-- A body that is lowered leaves the run between two bodies again, and other functions alone. -/
theorem Awaits.gives (self : source.SelfContained) (awaits : Awaits source options decl func context)
    (returned : lowerFunction source decl func context = .ok () after) :
    Between source options after ∧
      (∃ function, after.builder.target.function? func = some function) ∧
      ∀ other, other ≠ func → ∀ function, context.builder.target.function? other = some function →
        after.builder.target.function? other = some function := by
  have outcome := awaits.outcome self.same awaits self fun _ _ _ _ => rfl
  rw [returned] at outcome
  obtain ⟨function, made, _, furnished, _⟩ := outcome
  have restores := restores_lowerFunction source decl func context
  rw [returned] at restores
  have scope : after.scope = .root := restores.2.trans awaits.between.scope
  cases given : decl.body with
  | none =>
    rw [lowerFunction_external given] at returned
    cases returned
    exact ⟨awaits.between, ⟨function, made⟩, fun _ _ _ => id⟩
  | some body =>
    have ensured : Ensures (lowerFunction source decl func) context _ :=
      ensures_lowerFunction (soundBodies_lowerExpr source) awaits.between.resting awaits.bare rfl given
    obtain ⟨resting, gives⟩ := ensured.of_ok returned
    exact ⟨⟨furnished, resting, scope⟩, ⟨function, made⟩, gives.beside.kept⟩

end Makes

end TreeLowering.Lowering
