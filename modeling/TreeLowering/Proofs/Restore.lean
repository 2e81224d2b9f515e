/-
This file proves that lowering gives back its surroundings. Whatever state it starts from and
however it ends, lowering an expression or a whole function leaves the scopes with their bindings,
the functions and loops around it, and the scope of lookups as they were. The regime behind this asks
nothing of the builder, so it also carries whatever mapping a type keeps of what is remembered.
-/

import TreeLowering.Proofs.Regime.Expr

namespace TreeLowering.Lowering

open TreeLowering.Ir TreeLowering.Tree

/-- The environment and the scope after the action, also a failed one, are those before it. -/
def Restores {α : Type} (action : LowerM α) : Prop :=
  ∀ context, match action context with
    | .ok _ after | .error _ after => after.env = context.env ∧ after.scope = context.scope

/-! ### The regime of the memory -/

/-- The regime that asks nothing of the builder: what keeps to it gives its surroundings back, and
leaves what is remembered about types as `keeps` says. -/
def Regime.remembering (keeps : TypeMemo → Prop) : Regime where
  holds _ memo := keeps memo
  excused _ := True
  frames _ := True
  mine _ := True
  own _ := True
  free _ := True
  mapped _ _ := True
  yields _ _ := True
  joins _ _ := True
  answers _ := True
  returns _ := True

namespace Regime.remembering

variable {source : Source} {keeps : TypeMemo → Prop}

theorem steady (kept : ∀ ty state, keeps state.memo →
    Ends (mapType source ty) state (fun _ after => keeps after.memo) fun _ _ => True) :
    (Regime.remembering keeps).Steady source where
  pardons _ _ := trivial
  current _ _ := trivial
  here _ _ := trivial
  emits holds _ _ _ _ := holds
  reserves holds _ _ _ := holds
  stores holds _ _ _ := holds
  pins holds _ _ _ := holds
  opens holds _ _ _ := ⟨holds, trivial, trivial⟩
  moves holds _ _ _ _ _ := holds
  closes holds _ _ _ _ _ := holds
  declares holds _ _ _ := holds
  defines holds _ _ _ := holds
  maps ty holds :=
    (kept ty ⟨_, _⟩ holds).mono (fun _ _ holds => ⟨holds, trivial⟩) fun _ _ _ => trivial
  loops _ _ _ := trivial
  targets _ _ := trivial
  answers _ _ := trivial

theorem fits (kind : ExprKind) (ty : TypeId) : (Regime.remembering keeps).Fits kind ty :=
  .of_trivial (fun _ _ => trivial) (fun _ => trivial) (fun _ _ => trivial) kind ty

theorem build {α : Type} {action : BuildM α} {view : Env → Env} {context : Context} :
    Keeps (Regime.remembering keeps) view (build action) context fun _ _ => True :=
  .build (fun _ _ _ => trivial) fun _ _ holds _ => ⟨holds, trivial⟩

theorem lowerExpr (steady : (Regime.remembering keeps).Steady source) (taken : List Name)
    (expr : ExprId) (context : Context) :
    Keeps (Regime.remembering keeps) id (lowerExpr source taken expr) context
      ((Regime.remembering keeps).Gives expr) :=
  (steady.within trivial fits (fun _ _ => trivial) taken source.exprDepth expr).expr context

theorem lowerFunction (steady : (Regime.remembering keeps).Steady source) (decl : FunctionDecl)
    (func : FuncId) (context : Context) :
    Keeps (Regime.remembering keeps) id (lowerFunction source decl func) context
      fun _ _ => True := by
  unfold Lowering.lowerFunction
  split
  · exact .pure trivial
  · next body _ =>
    refine build.bind fun entry _ _ => ?_
    refine build.bind fun function _ _ => ?_
    refine build.bind fun _ _ _ => ?_
    exact steady.body trivial (lowerExpr steady _ body) fun _ _ => trivial

/-- Nothing is asked of the memory. -/
theorem steady_true (source : Source) : (Regime.remembering fun _ => True).Steady source :=
  steady fun _ _ _ => by
    unfold Ends
    split <;> trivial

end Regime.remembering

/-- What keeps to no rules gives its surroundings back. -/
theorem Restores.of_keeps {α : Type} {action : LowerM α} {post : α → Context → Prop}
    (keeps : ∀ context, Keeps (Regime.remembering fun _ => True) id action context post) :
    Restores action := by
  intro context
  have ended := keeps context ⟨trivial, trivial⟩
  unfold Ends at ended
  cases returned : action context with
  | ok result after =>
    rw [returned] at ended
    exact ⟨ended.1.env, ended.1.scope⟩
  | error cause after =>
    rw [returned] at ended
    exact ⟨ended.1.env, ended.1.scope⟩

/-! ### Expressions and functions -/

theorem restores_lowerExpr (source : Source) (taken : List Name) (expr : ExprId) :
    Restores (lowerExpr source taken expr) :=
  .of_keeps (Regime.remembering.lowerExpr (Regime.remembering.steady_true source) taken expr)

theorem restores_lowerFunction (source : Source) (decl : FunctionDecl) (func : FuncId) :
    Restores (lowerFunction source decl func) :=
  .of_keeps (Regime.remembering.lowerFunction (Regime.remembering.steady_true source) decl func)

/-- After an expression or a function is lowered, or has failed to be at any depth, the environment
and the scope are exactly those from before, whatever they were. -/
theorem lowering_restores_surroundings (source : Source) (taken : List Name) (expr : ExprId)
    (decl : FunctionDecl) (func : FuncId) :
    Restores (lowerExpr source taken expr) ∧ Restores (lowerFunction source decl func) :=
  ⟨restores_lowerExpr source taken expr, restores_lowerFunction source decl func⟩

end TreeLowering.Lowering
