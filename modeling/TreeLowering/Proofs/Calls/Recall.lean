/-
This file says what every call in a run can rely on. A regime that excuses all but some error holds
wherever a call is made: if it did not, the error could not come from that place, but a call that is
made raises whatever error is put in its place. The regime of this file says that the run recalls
primitive types rightly, so that a call finds each of them mapped to itself.
-/

import TreeLowering.Proofs.Calls.Program
import TreeLowering.Proofs.Restore
import TreeLowering.Proofs.Types.Recall

namespace TreeLowering.Lowering

open TreeLowering.Ir TreeLowering.Tree

/-! ### Regimes and calls -/

/-- The regime asks nothing of values, blocks and functions, and lets a run end in a tree that is too
deep or in a stray jump. -/
structure Regime.Loose (regime : Regime) : Prop where
  deep : regime.excused .malformedTree
  strays : ∀ jump span, regime.excused (.outsideLoop jump span)
  frames : ∀ frames, regime.frames frames
  mine : ∀ func, regime.mine func
  own : ∀ block, regime.own block
  yields : ∀ part value, regime.yields part value
  joins : ∀ ty incoming, regime.joins ty incoming
  returns : ∀ value, regime.returns value
  enters : ∀ {builder memo func}, regime.holds builder memo →
    Returns (Build.ensureEntry func) builder fun _ after => regime.holds after memo

section Regimes

variable {regime : Regime} {source : Source} {options : Options} {call : Call}
  {alarm : Error} {context : Context}

/-- Where the rules hold, it does not matter what an action does elsewhere. -/
theorem Keeps.congr {α : Type} {view : Env → Env} {action action' : LowerM α}
    {post : α → Context → Prop} (keeps : Keeps regime view action context post)
    (same : regime.Rules context → action' context = action context) :
    Keeps regime view action' context post := by
  intro rules
  have kept := keeps rules
  unfold Ends at kept ⊢
  rwa [same rules]

/-- A walk that fails in the place of one call keeps to a regime that does not hold there. -/
theorem Regime.Steady.refusing (steady : regime.Steady source) (loose : regime.Loose)
    (request : Request) (astray : ¬ regime.Rules request.before) (alarm : Error)
    (taken : List Name) (fuel : Nat) (part : ExprId) :
    regime.Lowers ((levels source taken fuel).refusing request alarm) part := by
  have plain := steady.within loose.deep
    (Regime.Fits.of_trivial loose.joins loose.returns loose.strays) loose.yields taken fuel part
  have elsewhere : ∀ manner context, regime.Rules context →
      (levels source taken fuel).refused request alarm manner part context =
        (levels source taken fuel).lower manner part context := by
    intro manner context rules
    refine if_neg ?_
    rintro rfl
    exact astray rules
  exact ⟨plain.found, fun context => (plain.expr context).congr (elsewhere .value context),
    fun context => (plain.place context).congr (elsewhere .place context)⟩

/-- A level of an expression keeps to the regime when its parts do. -/
theorem Regime.Steady.level {walk : Walk} (steady : regime.Steady walk.toSource)
    (loose : regime.Loose) (lowers : ∀ part, regime.Lowers walk part) (manner : Manner)
    (expr : ExprId) (context : Context) :
    Keeps regime id (walk.level manner expr) context fun _ _ => True := by
  have fits := Regime.Fits.of_trivial loose.joins loose.returns loose.strays
  cases manner with
  | value =>
    exact Keeps.mono (steady.lowerNode (fun _ => loose.deep) (fun _ _ part _ => lowers part)
      (fun node _ => fits node.kind node.ty) fun _ _ _ => (lowers expr).place) fun _ _ _ => trivial
  | place =>
    exact steady.lowerNodePlace (fun _ => loose.deep) (fun _ _ part _ => lowers part)
      fun _ _ _ context => ((lowers expr).expr context).mono fun _ _ _ => trivial

section Bodies

variable (steady : regime.Steady source) (loose : regime.Loose)
  {lower : List Name → ExprId → LowerM Value}
  (bodies : ∀ taken body context, Keeps regime id (lower taken body) context (regime.Gives body))

include steady loose bodies

theorem Regime.Steady.lowerFunctionBy (decl : FunctionDecl) (func : FuncId) (context : Context) :
    Keeps regime id (lowerFunctionBy lower source decl func) context fun _ _ => True := by
  unfold Lowering.lowerFunctionBy
  split
  · exact .pure trivial
  · next body _ =>
    have entered : Keeps regime id (build (Build.ensureEntry func)) context fun _ _ => True :=
      (steady.step (fun _ => True) (Build.stays_ensureEntry func) fun holds =>
        (loose.enters holds).mono fun _ _ kept => ⟨kept, trivial⟩).mono fun _ _ _ => trivial
    refine entered.bind fun entry _ _ => ?_
    refine (steady.ask (Build.fair_getFunction func)).bind fun function _ _ => ?_
    refine (steady.positionAt (loose.mine _) (loose.own _)).bind fun _ _ _ => ?_
    exact steady.body (loose.frames _) (bodies _ body) fun _ _ => loose.returns _

/-- A run keeps to the regime when it lowers bodies so. -/
theorem Regime.Steady.lowerItemsBy (context : Context) :
    Keeps regime id (lowerItemsBy lower source) context fun _ _ => True :=
  steady.declarations fun _ _ _ => Keeps.forM fun pair _ context =>
    steady.lowerFunctionBy loose bodies pair.1 pair.2 context

end Bodies

/-- A loose regime that does not excuse every error holds wherever a call is made. -/
theorem rules_of_made (steady : regime.Steady source) (loose : regime.Loose)
    (start : regime.Rules (Context.start options)) (loud : ¬ regime.excused alarm)
    (made : MadeBy source options call) : regime.Rules call.before := by
  induction made with
  | @body body before raises =>
    by_contra astray
    have parts := steady.refusing loose ⟨.value, body, before⟩ astray alarm
    have keeps := steady.lowerItemsBy loose (fun taken part =>
      (parts taken source.exprDepth part).expr) (Context.start options)
    obtain ⟨after, raised⟩ := raises alarm
    exact loud ((keeps start).of_error raised).2
  | @part outer inner _ directly rules =>
    by_contra astray
    have parts := steady.refusing loose inner.toRequest astray alarm inner.taken inner.fuel
    have keeps := Regime.Steady.level steady loose parts outer.manner outer.expr outer.before
    obtain ⟨after, raised⟩ := directly.raises alarm
    exact loud ((keeps rules).of_error raised).2

end Regimes

/-! ### Primitive types -/

section Recalls

variable {source : Source} {options : Options}

/-- A primitive type is mapped to itself, and at most that is remembered. -/
theorem run_mapType_primitive {state : TypeState} {ty : TypeId} {prim : Prim}
    (recalls : state.memo.Recalls source) (typed : source.program.primitive? ty = some prim) :
    ∃ memo, mapType source ty state = .ok (.prim prim) { state with memo } ∧
      memo.Recalls source := by
  obtain ⟨depth, deep⟩ : ∃ depth, source.typeDepth = depth + 1 :=
    Nat.exists_eq_succ_of_ne_zero (Nat.mul_ne_zero (by omega) (by omega))
  have asked : (get : TypeM TypeState) state = .ok state state := rfl
  unfold mapType
  rw [deep, mapTypeWithin, run_bind asked]
  cases found : state.memo.known.lookup ty with
  | some mapped =>
    cases recalls ty mapped found prim typed
    exact ⟨state.memo, rfl, recalls⟩
  | none =>
    refine ⟨{ state.memo with known := (ty, .prim prim) :: state.memo.known }, ?_,
      recalls.remember fun prim' typed' => ?_⟩
    · have shape : (source.program.types.kind ty).primitive? = some prim := typed
      generalize source.program.types.kind ty = kind at shape ⊢
      cases kind <;> cases shape <;> rfl
    · cases typed.symm.trans typed'
      rfl

theorem run_lowerType_primitive {context : Context} {ty : TypeId} {prim : Prim}
    (recalls : context.memo.Recalls source) (typed : source.program.primitive? ty = some prim) :
    ∃ memo, lowerType source ty context = .ok (.prim prim) { context with memo } ∧
      memo.Recalls source := by
  have recalls' : TypeMemo.Recalls source (TypeState.memo ⟨context.memo, context.builder.target⟩) :=
    recalls
  obtain ⟨memo, mapped, kept⟩ := run_mapType_primitive recalls' typed
  refine ⟨memo, ?_, kept⟩
  unfold lowerType mapping
  rw [mapped]

/-- The rules of a run that recalls primitive types rightly. -/
def Regime.recalling (source : Source) : Regime :=
  { Regime.remembering (TypeMemo.Recalls source) with excused := (· ≠ .selfConflict) }

theorem Regime.recalling.steady (source : Source) : (Regime.recalling source).Steady source :=
  have maps : ∀ ty state, state.memo.Recalls source → Ends (mapType source ty) state
      (fun _ after => after.memo.Recalls source) fun cause _ => cause ≠ .selfConflict :=
    (mindful_recalls source).heeds_mapType
  { Regime.remembering.steady fun ty state recalls =>
      (maps ty state recalls).mono (fun _ _ => id) fun _ _ _ => trivial with
    pardons := fun cause plain same => by
      subst same
      cases plain
    maps := fun {builder memo} ty recalls =>
      (maps ty ⟨memo, builder.target⟩ recalls).mono (fun _ _ kept => ⟨kept, trivial⟩)
        fun _ _ => id }

theorem Regime.recalling.loose (source : Source) : (Regime.recalling source).Loose where
  deep := nofun
  strays _ _ := nofun
  frames _ := trivial
  mine _ := trivial
  own _ := trivial
  yields _ _ := trivial
  joins _ _ := trivial
  returns _ := trivial
  enters recalls := fun _ _ _ => recalls

/-- Wherever a call is made, primitive types are recalled rightly. -/
theorem recalls_of_made {call : Call} (made : MadeBy source options call) :
    call.before.memo.Recalls source :=
  (rules_of_made (Regime.recalling.steady source) (Regime.recalling.loose source)
    ⟨.empty source, trivial⟩ (fun loud => loud rfl) made).holds

/-- An expression leaves the memory right. -/
theorem recalls_of_lowered {taken : List Name} {fuel : Nat} {expr : ExprId}
    {before after : Context} {value : Value} (recalls : before.memo.Recalls source)
    (lowered : lowerWithin source taken fuel expr before = .ok value after) :
    after.memo.Recalls source := by
  have loose := Regime.recalling.loose source
  have lowers := (Regime.recalling.steady source).within loose.deep
    (Regime.Fits.of_trivial loose.joins loose.returns loose.strays) loose.yields taken fuel expr
  exact (((lowers.expr before) ⟨recalls, trivial⟩).of_ok lowered).2.1.holds

end Recalls

end TreeLowering.Lowering
