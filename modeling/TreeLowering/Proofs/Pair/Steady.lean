/-
This file says when a pairing is steady: whatever step lowering takes, two runs that keep to the
pairing can take it beside each other. What is stored and loaded goes through addresses of the right
type, and what a construct leaves behind may be used by the constructs around it.
-/

import TreeLowering.Proofs.Pair.Rules
import TreeLowering.Proofs.Ssa.Certificate

namespace TreeLowering.Ir

/-- Constants that stand for themselves and refer to nothing. -/
def Constant.isScalar : Constant → Bool
  | int _ | bool _ | char _ | unit => true
  | _ => false

end TreeLowering.Ir

namespace TreeLowering.Lowering

open TreeLowering.Ir TreeLowering.Tree

theorem build_ask {α : Type} (question : Module → Except Ir.Error α) (context : Context) :
    build (Build.ask question) context = match question context.builder.target with
      | .ok answer => .ok answer context
      | .error cause => .error (.ir cause) context := by
  obtain ⟨builder, env, memo, strings, scope⟩ := context
  simp only [build, Build.ask]
  cases question builder.target <;> rfl

/-- What may be used at one point is closed under what lowering makes without a step. A type may be
used when its placeholder may be. -/
structure Usable (sound : Value → Prop) : Prop where
  types : ∀ {value}, sound value → sound (.undef value.ty)
  registers : ∀ {name ty}, sound (.undef ty) → sound (.reg name ty)
  scalars : ∀ {constant ty}, constant.isScalar = true → sound (.undef ty) →
    sound (.const constant ty)
  prims : ∀ prim, sound (.undef (.prim prim))
  pointers : ∀ {ty mutable}, sound (.undef (.ptr ty mutable)) ↔ sound (.undef ty)
  elements : ∀ {elem len}, sound (.undef (.array elem len)) → sound (.undef elem)

/-- Everything may be used. -/
theorem Usable.everything : Usable fun _ => True :=
  ⟨fun _ => trivial, fun _ => trivial, fun _ _ => trivial, fun _ => trivial, Iff.rfl,
    fun _ => trivial⟩

/-- Whether a value may be used can be left to its type. -/
theorem Usable.of_types {admits : Ty → Prop} (prims : ∀ prim, admits (.prim prim))
    (pointers : ∀ {ty mutable}, admits (.ptr ty mutable) ↔ admits ty)
    (elements : ∀ {elem len}, admits (.array elem len) → admits elem) :
    Usable fun value => admits value.ty :=
  ⟨id, id, fun _ => id, prims, pointers, elements⟩

namespace Pairing

/-- The operations that constructs emit at the cursor, with the type of the result. -/
def Emits (pairing : Pairing) (ty : Ty) : Operation → Prop
  | .load address => pairing.typed address ty
  | .gep baseTy base _ =>
    pairing.typed base baseTy ∧ ∃ elemTy, ty = .ptr elemTy (Build.writable base)
  | .call callee _ => ∃ name params, callee = .global name (.func params ty)
  | .alloca _ | .store .. | .const _ => False
  | _ => True

/-- What the operation reads may be used, and so may the type that it steps into. -/
structure Reads (pairing : Pairing) (work work' : Work) (op : Operation) : Prop where
  operands : ∀ value ∈ op.operands, pairing.sound work work' value
  steps : ∀ baseTy base indices, op = .gep baseTy base indices →
    pairing.Admits work work' baseTy

/-- Two globals of one name have one address, through which something of type `ty` may be used. -/
def SameGlobal (pairing : Pairing) (work work' : Work) (ty : Ty) :
    Option Global → Option Global → Prop
  | some global, some global' =>
    global'.address = global.address ∧ pairing.Homes work work' global.address ty
  | none, none => True
  | _, _ => False

/-- Two functions that are called have one name and one signature. -/
def SameFunction (pairing : Pairing) (work work' : Work) :
    Except Ir.Error Function → Except Ir.Error Function → Prop
  | .ok function, .ok function' =>
    function'.name = function.name ∧ function'.signature = function.signature ∧
      pairing.sound work work' (.global function.name function.signature) ∧
      pairing.Admits work work' function.ret
  | .error cause, .error cause' => pairing.excused (.ir cause) (.ir cause')
  | _, _ => False

/-- Either both functions are found, or neither is. -/
theorem SameFunction.cases {pairing : Pairing} {work work' : Work}
    {found found' : Except Ir.Error Function}
    (same : pairing.SameFunction work work' found found') :
    (∃ function function', found = .ok function ∧ found' = .ok function' ∧
      function'.name = function.name ∧ function'.signature = function.signature ∧
      pairing.sound work work' (.global function.name function.signature) ∧
      pairing.Admits work work' function.ret) ∨
    ∃ cause cause', found = .error cause ∧ found' = .error cause' ∧
      pairing.excused (.ir cause) (.ir cause') := by
  cases found with
  | ok function =>
    cases found' with
    | ok function' => exact .inl ⟨function, function', rfl, rfl, same⟩
    | error cause' => exact same.elim
  | error cause =>
    cases found' with
    | ok function' => exact same.elim
    | error cause' => exact .inr ⟨cause, cause', rfl, rfl, same⟩

/-- The steps that lowering takes can be taken beside each other. -/
structure Steady (pairing : Pairing) (source source' : Source) (taken : List Name) : Prop where
  pardons : ∀ cause, pairing.excused cause cause
  usable : ∀ work work', Usable (pairing.sound work work')
  points : ∀ {value : Value} {ty mutable}, value.ty = .ptr ty mutable → pairing.typed value ty
  plain : ∀ {name value}, name ∉ taken →
    pairing.bindable name (.value value) ∧ pairing.bindable name (.param value)
  slots : ∀ {name address ty mutable}, pairing.bindable name (.slot address ty mutable)
  homed : ∀ {name value}, pairing.addresses name →
    pairing.bindable name (.value value) ∨ pairing.bindable name (.param value) →
    pairing.namesSlots
  cursors : ∀ {work work'}, pairing.holds work work' →
    work'.builder.cursor.map Cursor.block = work.builder.cursor.map Cursor.block
  current : ∀ {work work'}, pairing.holds work work' →
    pairing.Steps Build.currentFunction Build.currentFunction work work' pairing.mine
  emits : ∀ {work work' op ty}, pairing.holds work work' → pairing.Emits ty op →
    pairing.Reads work work' op → pairing.Admits work work' ty →
    pairing.Steps (Build.emitTemp op ty) (Build.emitTemp op ty) work work'
      fun value value' => value' = value ∧ ∃ name, value = .reg name ty
  reserves : ∀ {work work' ty} {variableName : Option String}, pairing.holds work work' →
    (variableName.isSome = true → pairing.namesSlots) → pairing.Admits work work' ty →
    pairing.Steps (Build.alloca ty variableName) (Build.alloca ty variableName) work work'
      fun value value' => value' = value ∧ ∃ name, value = .reg name (.ptr ty true)
  stores : ∀ {work work' address value ty}, pairing.holds work work' → pairing.typed address ty →
    pairing.sound work work' address → pairing.sound work work' value →
    pairing.Steps (Build.store address value) (Build.store address value) work work'
      fun _ _ => True
  pins : ∀ {work work' value}, pairing.holds work work' →
    pairing.Steps (Build.pin value) (Build.pin value) work work' fun _ _ => True
  opens : ∀ {work work' hint}, pairing.holds work work' →
    pairing.Steps (Build.newBlock hint) (Build.newBlock hint) work work'
      fun block block' => block' = block
  moves : ∀ {work work' func func' block}, pairing.holds work work' → pairing.mine func func' →
    pairing.Steps (Build.positionAt func block) (Build.positionAt func' block) work work'
      fun _ _ => True
  closes : ∀ {work work'} {terminator : Terminator}, pairing.holds work work' →
    (∀ test first second, terminator = .branch test first second → test.ty = .bool) →
    (∀ value ∈ terminator.operands, pairing.sound work work' value) →
    pairing.Steps (Build.terminate terminator) (Build.terminate terminator) work work'
      fun _ _ => True
  maps : ∀ {work work'} (ty : TypeId), pairing.holds work work' →
    pairing.Outcome (fun found after found' after' =>
      pairing.holds (work.mapped after) (work'.mapped after') ∧
        (∀ value, pairing.sound work work' value →
          pairing.sound (work.mapped after) (work'.mapped after') value) ∧
        found' = found ∧ pairing.mapped ty found ∧
        pairing.Admits (work.mapped after) (work'.mapped after') found)
      (mapType source ty ⟨work.memo, work.builder.target⟩)
      (mapType source' ty ⟨work'.memo, work'.builder.target⟩)
  symbols : ∀ {scope name link ty span context context'}, pairing.looksUp scope name →
    source.program.scopes.resolve? scope name .value = some (.function link ty) →
    pairing.Matches scope (functionForSymbol source link ty span)
      (functionForSymbol source' link ty span) context context' fun func func' _ _ =>
        pairing.callee func func'
  calls : ∀ {work work' func func'}, pairing.holds work work' → pairing.callee func func' →
    pairing.SameFunction work work' (work.builder.target.getFunction func)
      (work'.builder.target.getFunction func')
  constants : ∀ {work work' scope name link ty found}, pairing.holds work work' →
    pairing.looksUp scope name →
    source.program.scopes.resolve? scope name .value = some (.const link ty) →
    pairing.mapped ty found → pairing.Admits work work' found →
    pairing.SameGlobal work work' found (work.builder.target.global? (source.names.text link))
      (work'.builder.target.global? (source.names.text link))
  literals : pairing.hasTexts → ∀ {scope context context'} (text : String),
    pairing.Agrees scope (stringLiteral text) (stringLiteral text) context context' pairing.Yields

namespace Steady

variable {α β : Type} {pairing : Pairing} {source source' : Source} {taken : List Name}
  {scope : ScopeId} {context context' : Context} (steady : pairing.Steady source source' taken)

include steady

/-! ### Values -/

section Values

variable {work work' : Work}

theorem types {value : Value} (sound : pairing.sound work work' value) :
    pairing.Admits work work' value.ty := (steady.usable work work').types sound

theorem registers {name : ValueName} {ty : Ty} (admits : pairing.Admits work work' ty) :
    pairing.sound work work' (.reg name ty) := (steady.usable work work').registers admits

theorem scalars {constant : Constant} {ty : Ty} (scalar : constant.isScalar = true)
    (admits : pairing.Admits work work' ty) : pairing.sound work work' (.const constant ty) :=
  (steady.usable work work').scalars scalar admits

theorem prims (prim : Prim) : pairing.Admits work work' (.prim prim) :=
  (steady.usable work work').prims prim

theorem pointers {ty : Ty} {mutable : Bool} :
    pairing.Admits work work' (.ptr ty mutable) ↔ pairing.Admits work work' ty :=
  (steady.usable work work').pointers

theorem elements {elem : Ty} {len : UInt64} (admits : pairing.Admits work work' (.array elem len)) :
    pairing.Admits work work' elem := (steady.usable work work').elements admits

end Values

/-! ### Dead code -/

theorem live (rules : pairing.Rules scope context context') :
    context'.builder.cursor.isSome = context.builder.cursor.isSome := by
  have same := congrArg Option.isSome (steady.cursors rules.holds)
  rwa [Option.isSome_map, Option.isSome_map] at same

theorem isLive : pairing.Agrees scope isLive isLive context context'
    fun live after after' => live = context.builder.cursor.isSome ∧ after = context ∧
      after' = context' :=
  fun rules => ⟨rules, fun _ => id, steady.live rules, rfl, rfl, rfl⟩

/-- What follows runs in both runs or in none. -/
theorem thenLive {dead : β} {action action' : LowerM α} {next next' : α → LowerM β}
    {first : α → Context → Context → Prop} {post : β → Context → Context → Prop}
    (part : pairing.Agrees scope action action' context context' first)
    (rest : ∀ result after after', pairing.Later context context' after after' →
      first result after after' →
      pairing.Agrees scope (next result) (next' result) after after' post)
    (skipped : ∀ after after', post dead after after') :
    pairing.Agrees scope (thenLive dead action next) (thenLive dead action' next') context context'
      post := by
  unfold Lowering.thenLive
  refine part.bind fun result middle middle' later holds => ?_
  refine steady.isLive.bind ?_
  rintro live after after' - ⟨rfl, rfl, rfl⟩
  split
  · exact rest result after after' later holds
  · exact .pure ⟨rfl, skipped after after'⟩

/-- A construct that is met in dead code is skipped in both runs. -/
theorem whenLive {dead : α} {action action' : LowerM α} {post : α → Context → Context → Prop}
    (skipped : post dead context context')
    (rest : context.builder.cursor.isSome = true →
      pairing.Agrees scope action action' context context' post) :
    pairing.Agrees scope (do if !(← Lowering.isLive) then return dead else action)
      (do if !(← Lowering.isLive) then return dead else action') context context' post := by
  refine steady.isLive.bind ?_
  rintro _ context context' - ⟨rfl, rfl, rfl⟩
  cases live : context.builder.cursor.isSome with
  | false => exact .pure ⟨rfl, skipped⟩
  | true => exact rest live

/-! ### Steps -/

theorem fails {cause : Error} {post : α → β → Context → Context → Prop} :
    pairing.Matches scope (throw cause) (throw cause) context context' post :=
  .throw (steady.pardons cause)

omit steady in
/-- An operation that makes no address reads its operands only. -/
theorem reads {work work' : Work} {op : Operation}
    (operands : ∀ value ∈ op.operands, pairing.sound work work' value)
    (plain : ∀ baseTy base indices, op ≠ .gep baseTy base indices) :
    pairing.Reads work work' op :=
  ⟨operands, fun baseTy base indices same => absurd same (plain baseTy base indices)⟩

/-- The result of an instruction is a register of the type that was asked for. -/
theorem emit {op : Operation} {ty : Ty} (emits : pairing.Emits ty op)
    (reads : pairing.Reads context.work context'.work op)
    (admits : pairing.Admits context.work context'.work ty) :
    pairing.Agrees scope (build (Build.emitTemp op ty)) (build (Build.emitTemp op ty)) context
      context' fun value _ _ => ∃ name, value = .reg name ty :=
  .build fun holds => steady.emits holds emits reads admits

/-- The last instruction of a construct yields its value. -/
theorem computes {op : Operation} {ty : Ty} (emits : pairing.Emits ty op)
    (reads : pairing.Reads context.work context'.work op)
    (admits : pairing.Admits context.work context'.work ty) :
    pairing.Agrees scope (build (Build.emitTemp op ty)) (build (Build.emitTemp op ty)) context
      context' pairing.Yields :=
  (steady.emit emits reads admits).mono fun value after after' later ⟨name, register⟩ => by
    rw [Yields, register]
    exact steady.registers (later _ admits)

theorem load {address : Value} {ty : Ty}
    (homes : pairing.Homes context.work context'.work address ty) :
    pairing.Agrees scope (build (Build.load address ty)) (build (Build.load address ty)) context
      context' pairing.Yields :=
  steady.computes homes.typed (reads (List.forall_mem_singleton.2 homes.address) nofun)
    homes.content

/-- A new slot is the home of what it is made for. -/
theorem slot {ty : Ty} {variableName : Option String}
    (named : variableName.isSome = true → pairing.namesSlots)
    (admits : pairing.Admits context.work context'.work ty) :
    pairing.Agrees scope (build (Build.alloca ty variableName)) (build (Build.alloca ty variableName))
      context context' fun address after after' =>
        pairing.Homes after.work after'.work address ty := by
  have reserved : pairing.Agrees scope (build (Build.alloca ty variableName))
      (build (Build.alloca ty variableName)) context context' fun address _ _ =>
        ∃ name, address = .reg name (.ptr ty true) :=
    .build fun holds => steady.reserves holds named admits
  refine reserved.mono ?_
  rintro _ after after' later ⟨name, rfl⟩
  have content := later _ admits
  exact ⟨steady.points rfl, steady.registers (steady.pointers.2 content), content⟩

/-- A slot without a name may always be made. -/
theorem temporary {ty : Ty} (admits : pairing.Admits context.work context'.work ty) :
    pairing.Agrees scope (build (Build.alloca ty none)) (build (Build.alloca ty none)) context
      context' fun address after after' => pairing.Homes after.work after'.work address ty :=
  steady.slot (fun impossible => absurd impossible Bool.false_ne_true) admits

theorem gep {baseTy elemTy : Ty} {base : Value} {indices : List Value}
    (homes : pairing.Homes context.work context'.work base baseTy)
    (positions : ∀ index ∈ indices, pairing.sound context.work context'.work index)
    (admits : pairing.Admits context.work context'.work elemTy) :
    pairing.Agrees scope (build (Build.gep baseTy base indices elemTy))
      (build (Build.gep baseTy base indices elemTy)) context context' fun address after after' =>
        pairing.Homes after.work after'.work address elemTy := by
  have emits : pairing.Emits (.ptr elemTy (Build.writable base)) (.gep baseTy base indices) :=
    ⟨homes.typed, elemTy, rfl⟩
  have reads : pairing.Reads context.work context'.work (.gep baseTy base indices) := by
    refine ⟨List.forall_mem_cons.2 ⟨homes.address, positions⟩, fun _ _ _ same => ?_⟩
    cases same
    exact homes.content
  refine (steady.emit emits reads (steady.pointers.2 admits)).mono ?_
  rintro _ after after' later ⟨name, rfl⟩
  have content := later _ admits
  exact ⟨steady.points rfl, steady.registers (steady.pointers.2 content), content⟩

theorem store {address value : Value} {ty : Ty}
    (homes : pairing.Homes context.work context'.work address ty)
    (sound : pairing.sound context.work context'.work value) :
    pairing.Agrees scope (build (Build.store address value)) (build (Build.store address value))
      context context' fun _ _ _ => True :=
  Matches.mono (.build fun holds => steady.stores holds homes.typed homes.address sound)
    fun _ _ _ _ _ _ => ⟨rfl, trivial⟩

theorem pin {value : Value} :
    pairing.Agrees scope (build (Build.pin value)) (build (Build.pin value)) context context'
      fun _ _ _ => True :=
  Matches.mono (.build fun holds => steady.pins holds) fun _ _ _ _ _ _ => ⟨rfl, trivial⟩

theorem newBlock {hint : String} :
    pairing.Agrees scope (build (Build.newBlock hint)) (build (Build.newBlock hint)) context context'
      fun _ _ _ => True :=
  Matches.mono (.build fun holds => steady.opens holds) fun _ _ _ _ _ same => ⟨same, trivial⟩

theorem positionAt {func func' : FuncId} {block : BlockId} (mine : pairing.mine func func') :
    pairing.Agrees scope (build (Build.positionAt func block)) (build (Build.positionAt func' block))
      context context' fun _ _ _ => True :=
  Matches.mono (.build fun holds => steady.moves holds mine) fun _ _ _ _ _ _ => ⟨rfl, trivial⟩

theorem terminate {terminator : Terminator}
    (tests : ∀ test first second, terminator = .branch test first second → test.ty = .bool)
    (operands : ∀ value ∈ terminator.operands, pairing.sound context.work context'.work value) :
    pairing.Agrees scope (build (Build.terminate terminator)) (build (Build.terminate terminator))
      context context' fun _ _ _ => True :=
  Matches.mono (.build fun holds => steady.closes holds tests operands)
    fun _ _ _ _ _ _ => ⟨rfl, trivial⟩

theorem jump {target : BlockId} :
    pairing.Agrees scope (build (Build.jump target)) (build (Build.jump target)) context context'
      fun _ _ _ => True :=
  steady.terminate nofun (List.forall_mem_nil _)

theorem branch {test : Value} {first second : BlockId} (bool : test.ty = .bool)
    (sound : pairing.sound context.work context'.work test) :
    pairing.Agrees scope (build (Build.branch test first second))
      (build (Build.branch test first second)) context context' fun _ _ _ => True :=
  steady.terminate (fun _ _ _ same => by
    cases same
    exact bool) (List.forall_mem_singleton.2 sound)

theorem ret {value : Option Value}
    (sound : ∀ given ∈ value, pairing.sound context.work context'.work given) :
    pairing.Agrees scope (build (Build.ret value)) (build (Build.ret value)) context context'
      fun _ _ _ => True :=
  steady.terminate nofun fun given member => sound given (Option.mem_toList.1 member)

theorem lowerType (ty : TypeId) :
    pairing.Agrees scope (lowerType source ty) (lowerType source' ty) context context'
      fun found after after' => pairing.mapped ty found ∧
        pairing.Admits after.work after'.work found :=
  .mapping fun holds => (steady.maps ty holds).mono
    fun found after found' after' ⟨holds', later, same, mapped, admits⟩ =>
      ⟨holds', later, fun done done' here here' => ⟨same, mapped, by rwa [here, here']⟩⟩

theorem currentFunction :
    pairing.Matches scope currentFunction currentFunction context context' fun func func' _ _ =>
      pairing.mine func func' :=
  .build fun holds => steady.current holds

/-- A function that may be called has one signature in both runs. -/
theorem getFunction {func func' : FuncId} (callee : pairing.callee func func') :
    pairing.Matches scope (build (Build.ask fun target => target.getFunction func))
      (build (Build.ask fun target => target.getFunction func')) context context'
      fun function function' after after' =>
        context.builder.target.getFunction func = .ok function ∧
          function'.signature = function.signature ∧
          pairing.Admits after.work after'.work function.ret := by
  intro rules
  have called := steady.calls rules.holds callee
  rw [build_ask, build_ask]
  change pairing.SameFunction _ _ (context.builder.target.getFunction func)
    (context'.builder.target.getFunction func') at called
  rcases called.cases with ⟨function, function', found, found', _, signature, _, admits⟩ |
    ⟨cause, cause', failed, failed', excused⟩
  · rw [found, found']
    exact ⟨rules, fun _ => id, rfl, signature, admits⟩
  · rw [failed, failed']
    exact .inl excused

/-- A function that may be called has one operand in both runs. -/
theorem functionRef {func func' : FuncId} (callee : pairing.callee func func') :
    pairing.Agrees scope (build (Build.ask fun target => target.functionRef func))
      (build (Build.ask fun target => target.functionRef func')) context context'
      fun operand after after' => after.builder = context.builder ∧
        after'.builder = context'.builder ∧
        (∀ function, context.builder.target.getFunction func = .ok function →
          operand = .global function.name function.signature) ∧
        pairing.Yields operand after after' := by
  intro rules
  have called := steady.calls rules.holds callee
  rw [build_ask, build_ask]
  change pairing.SameFunction _ _ (context.builder.target.getFunction func)
    (context'.builder.target.getFunction func') at called
  simp only [Module.functionRef]
  rcases called.cases with ⟨function, function', found, found', name, signature, sound, _⟩ |
    ⟨cause, cause', failed, failed', excused⟩
  · rw [found, found']
    refine ⟨rules, fun _ => id, ?_, rfl, rfl, fun _ same => ?_, sound⟩
    · show Value.global _ _ = Value.global _ _
      rw [name, signature]
    · cases same
      rfl
  · rw [failed, failed']
    exact .inl excused

end Steady

end Pairing

end TreeLowering.Lowering
