/-
This file proves that literals and operators are lowered faithfully. An operator that evaluates both
operands computes its result from two registers; the left one is still there when the right operand
has been computed, because nothing sets a register twice.
-/

import TreeLowering.Lowering.Expr
import TreeLowering.Proofs.Meaning.Construct

namespace TreeLowering.Lowering

open TreeLowering.Ir TreeLowering.Tree Builder

section Operator

variable {source : Source} {site : Site} {context : Context} {walk : Walk} {prim : Prim}

/-! ### Literals -/

/-- An operand that stands for a scalar wherever it is read is a value. -/
theorem Stands.constant {value : Value} {scalar : Scalar} (stands : Stands source site context)
    (none : value.regName? = none) (ty : value.ty = .prim scalar.prim)
    (datum : ∀ setting regs, Setting.operand? setting regs value = some scalar.datum)
    (typed : scalar.prim = prim) (inhabited : prim ≠ .never) :
    Means source site context.builder (fun _ => .ends (.value scalar)) prim value context := by
  refine ⟨⟨stands.fit, .refl _, stands.env, stands.memo⟩, ⟨⟨_, ty⟩, fun name named => ?_⟩,
    fun run _ _ locals outcome locals' evaluated id previous state here holds _ => ?_⟩
  · rw [none] at named
    cases named
  · obtain ⟨rfl, rfl⟩ := Evaluation.ends_eq_some evaluated
    exact Run.ends_shows ⟨stands.fit, rfl, rfl, rfl⟩ here holds ⟨ty, datum _ _⟩ typed inhabited

theorem Stands.unit (stands : Stands source site context) :
    Means source site context.builder (fun _ => .ends (.value .unit)) .unit .unit context :=
  stands.constant rfl rfl (fun _ _ => rfl) rfl (by decide)

theorem Stands.lowerInt {ty : TypeId} (stands : Stands source site context) (value : UInt64)
    (typed : source.program.prim? ty = some prim) (integer : prim.isInteger = true) :
    Ensures (lowerInt source value ty) context (Means source site context.builder
      (fun _ => .ends (.value (.ofInt prim value.toNat))) prim) := by
  unfold Lowering.lowerInt
  rw [ensures_bind]
  refine (ensures_lowerType_prim stands.memo typed).mono fun mapped after lowered => ?_
  obtain ⟨rfl, memo, same⟩ := lowered
  have stands' : Stands source site after := by
    rw [same]
    exact ⟨stands.fit, stands.live, stands.env, stands.bound, memo⟩
  have literal : literalTy (.prim prim) = .prim prim := if_pos integer
  rw [ensures_pure, literal, show context.builder = after.builder by rw [same]]
  refine stands'.constant rfl rfl (fun _ _ => rfl) rfl fun never => ?_
  rw [never] at integer
  cases integer

/-! ### Operators with one operand -/

theorem Stands.lowerUnary {depth : Nat} (stands : Stands walk.toSource site context)
    (faithful : walk.Faithful) (op : UnaryOp) (operand : ExprId)
    (typed : walk.program.wellTyped site.ret depth site.leaves site.prims operand = true)
    (suits : walk.program.suits prim operand = true) :
    Ensures (lowerUnary walk op operand) context (Means walk.toSource site context.builder
      (fun fuel => (walk.program.evaluate fuel operand).andThen fun scalar =>
        .ends (.value (scalar.unary op))) prim) := by
  obtain ⟨_, _, carried, _, _, carries, _⟩ := Program.wellTyped_cases typed
  unfold Lowering.lowerUnary
  refine stands.afterValue faithful typed carries fun value after known stands' => ?_
  obtain ⟨id, here⟩ := stands'.live
  unfold Build.unary
  rw [ensures_build]
  refine (stands'.fit.emit here rfl).mono fun result later emitted => ?_
  obtain ⟨name, rfl, emits⟩ := emitted
  obtain ⟨_, scalar⟩ := known.scalar
  refine ⟨⟨emits.fit, emits.leads, stands'.env, stands'.memo⟩,
    ⟨⟨_, scalar⟩, fun _ named => by cases named; exact emits.sets⟩,
    fun run grown fuel scalar same inhabited => ?_⟩
  intro locals outcome locals' evaluated id' previous state here' holds shows
  obtain ⟨rfl, rfl⟩ := Evaluation.ends_eq_some evaluated
  cases here.symm.trans here'
  obtain rfl := Program.prim_of_suits suits carries inhabited
  refine Run.ends_emit emits grown stands'.bound holds ?_ ?_ ?_ inhabited
  · simp only [Setting.compute?, shows.datum, Option.bind_eq_bind, Option.bind_some,
      Scalar.unary_datum, Option.map_some]
  · rw [Scalar.unary_prim]
    exact shows.ty
  · rw [Scalar.unary_prim, same]

/-! ### Operators with two operands -/

/-- What is known of the instruction that was chosen for an operator. -/
structure Combines (op : BinaryOp) (left right : Value) (inst : Instruction) : Prop where
  scalar : ∃ prim, inst.ty = .prim prim
  computes : ∀ (run : Run) previous state first second result, run.Shows state left first →
    run.Shows state right second → first.binary? op second = some result →
    run.setting.compute? previous inst.ty inst.op state = some (result.datum, state.store) ∧
      inst.ty = .prim result.prim ∧ result.prim = op.resultPrim first.prim

theorem Combines.cmp {op : BinaryOp} {pred : CmpPred} {left right : Value} {name : ValueName}
    (chosen : comparison? op left.ty.isSigned = some pred) :
    Combines op left right ⟨name, .bool, .cmp pred left right⟩ := by
  refine ⟨⟨.bool, rfl⟩, fun run previous state first second result showsLeft showsRight found => ?_⟩
  rw [showsLeft.ty] at chosen
  obtain ⟨computed, prim⟩ := Scalar.compare_datum chosen found
  have comparison : op.isComparison = true := by
    rw [← Scalar.isSome_comparison? op first.prim.isSigned]
    exact Option.isSome_iff_exists.2 ⟨pred, chosen⟩
  refine ⟨?_, by rw [prim]; rfl, by rw [prim, BinaryOp.resultPrim, if_pos comparison]⟩
  simp only [Setting.compute?, showsLeft.datum, showsRight.datum, Option.bind_eq_bind,
    Option.bind_some, computed, Option.map_some]

theorem Combines.binary {op : BinaryOp} {opcode : BinOp} {left right : Value} {name : ValueName}
    (scalar : ∃ prim, left.ty = .prim prim)
    (chosen : arithmetic? op left.ty.isSigned = some opcode) :
    Combines op left right ⟨name, left.ty, .binary opcode left right⟩ := by
  refine ⟨scalar, fun run previous state first second result showsLeft showsRight found => ?_⟩
  rw [showsLeft.ty] at chosen
  obtain ⟨computed, prim⟩ := Scalar.binary_datum chosen found
  have arithmetic : ¬ op.isComparison = true := fun comparison => by
    rw [Scalar.arithmetic?_of_comparison comparison] at chosen
    cases chosen
  refine ⟨?_, by rw [prim]; exact showsLeft.ty, by rw [prim, BinaryOp.resultPrim, if_neg arithmetic]⟩
  simp only [Setting.compute?, showsLeft.datum, showsRight.datum, Option.bind_eq_bind,
    Option.bind_some, computed, Option.map_some]

theorem Stands.emitBinary {op : BinaryOp} {left right : Value} {id : BlockId}
    (stands : Stands source site context) (here : context.builder.here? = some id)
    (scalar : ∃ prim, left.ty = .prim prim) (span : Span) :
    Ensures (emitBinary op left right span) context fun value after => ∃ inst,
      value = inst.result ∧ after = { context with builder := after.builder } ∧
        Emits context.builder after.builder id inst ∧ Combines op left right inst := by
  unfold Lowering.emitBinary
  dsimp only
  split
  · next pred chosen =>
    unfold Build.cmp
    rw [ensures_build]
    refine (stands.fit.emit here rfl).mono fun result later emitted => ?_
    obtain ⟨name, rfl, emits⟩ := emitted
    exact ⟨_, rfl, rfl, emits, .cmp chosen⟩
  · split
    · next opcode chosen =>
      unfold Build.binary
      rw [ensures_build]
      refine (stands.fit.emit here rfl).mono fun result later emitted => ?_
      obtain ⟨name, rfl, emits⟩ := emitted
      exact ⟨_, rfl, rfl, emits, .binary scalar chosen⟩
    · rfl

/-- The instruction of an operator computes its result from two operands that are known. -/
theorem Combines.simulates {run : Run} {now later : Builder} {id : BlockId} {op : BinaryOp}
    {left right : Value} {inst : Instruction} {first second : Scalar}
    (combines : Combines op left right inst) (emits : Emits now later id inst)
    (here : now.here? = some id) (grown : later.body.Extends run.function)
    (bound : Bound now.body site) (same : op.resultPrim first.prim = prim)
    (inhabited : prim ≠ .never) :
    run.Simulates site now later
      (fun state => run.Shows state left first ∧ run.Shows state right second) inst.result prim
      (.given (first.binary? op second)) := by
  intro locals outcome locals' evaluated id' previous state here' holds shows
  obtain ⟨result, found, rfl, rfl⟩ := Evaluation.given_eq_some evaluated
  cases here.symm.trans here'
  obtain ⟨computed, typed, combined⟩ :=
    combines.computes run previous state first second result shows.1 shows.2 found
  exact Run.ends_emit emits grown bound holds computed typed (combined.trans same) inhabited

theorem evaluateBinary_eager {op : BinaryOp} (eager : op.isShortCircuit = false)
    (part : ExprId → Evaluation) (left right : ExprId) :
    evaluateBinary part op left right = (part left).andThen fun first =>
      (part right).andThen fun second => .given (first.binary? op second) := by
  cases op <;> first | rfl | cases eager

/-- Both operands are known when the operator is applied. -/
theorem Stands.lowerEager {op : BinaryOp} {depth : Nat} (stands : Stands walk.toSource site context)
    (faithful : walk.Faithful) (left right : ExprId) (span : Span) (eager : op.isShortCircuit = false)
    (checked : walk.program.checkEager (walk.program.wellTyped site.ret depth) site.leaves site.prims op
      left right prim = true) :
    Ensures (walk.withValue left fun first => walk.withValue right fun second =>
      Lowering.emitBinary op first second span) context (Means walk.toSource site context.builder
        (fun fuel => evaluateBinary (walk.program.evaluate fuel) op left right) prim) := by
  obtain ⟨typedLeft, typedRight, agrees⟩ := Program.checkEager_cases checked
  obtain ⟨_, _, primLeft, _, _, carriesLeft, _⟩ := Program.wellTyped_cases typedLeft
  obtain ⟨_, _, primRight, _, _, carriesRight, _⟩ := Program.wellTyped_cases typedRight
  simp only [evaluateBinary_eager eager]
  refine stands.withValue faithful typedLeft carriesLeft (fun first second means nowhere => ?_)
    fun first second meansLeft stands₂ => ?_
  · exact ⟨means.toGives, .of_constant rfl rfl, fun run grown fuel =>
      (means.runs run grown fuel).dead nowhere⟩
  refine stands₂.withValue faithful typedRight carriesRight (fun _ third means nowhere => ?_)
    fun other third meansRight stands₃ => ?_
  · refine ⟨⟨means.fit, meansLeft.leads.trans means.leads, means.env, means.memo⟩,
      .of_constant rfl rfl, fun run grown fuel => ?_⟩
    refine (meansLeft.runs run (means.leads.grown.trans grown) fuel).andThen meansLeft.leads.grown
      (fun _ _ _ _ => trivial) fun scalar _ _ => ?_
    exact ((means.runs run grown fuel).weaken fun _ _ => trivial).dead nowhere
  · obtain ⟨id, here⟩ := stands₃.live
    refine (stands₃.emitBinary here meansLeft.known.scalar span).mono fun value after emitted => ?_
    obtain ⟨inst, rfl, same, emits, combines⟩ := emitted
    have leads := (meansLeft.leads.trans meansRight.leads).trans emits.leads
    refine ⟨⟨emits.fit, leads, by rw [same]; exact meansRight.env, by rw [same]; exact meansRight.memo⟩,
      ⟨combines.scalar, fun _ named => by cases named; exact emits.sets⟩, fun run grown fuel => ?_⟩
    have grown₃ := emits.leads.grown.trans grown
    refine (meansLeft.runs run (meansRight.leads.grown.trans grown₃) fuel).andThen
      meansLeft.leads.grown (fun _ _ _ _ => trivial) fun scalar sameLeft inhabitedLeft => ?_
    refine ((meansRight.runs run grown₃ fuel).weaken fun _ _ => trivial).andThen
      meansRight.leads.grown (fun _ _ kept shown => ⟨trivial, shown.2.kept meansLeft.known kept⟩)
      fun scalar' sameRight inhabitedRight => ?_
    have same : op.resultPrim primLeft = prim :=
      agrees primLeft carriesLeft inhabitedLeft (Program.not_diverges carriesRight inhabitedRight)
    refine (combines.simulates emits here grown stands₃.bound (by rw [sameLeft, same]) ?_).weaken
      fun state shows => ⟨shows.1.2, shows.2⟩
    exact same ▸ op.resultPrim_inhabited inhabitedLeft

end Operator

end TreeLowering.Lowering
