/-
This file proves that addresses are typed in every accepted program, whatever its expressions are
annotated with: loads and stores go through pointers, a load yields what its pointer points at,
address arithmetic starts from a pointer to the type that it names, a call is of a function that
returns the call's type, and every test is a truth value. Each way to make a place gives the address
of something of the type that the place records. Only the type of a constant is taken on trust by
the bodies that mention it, so it has to be the type that the constant is declared with.
-/

import TreeLowering.Proofs.Pair.Program
import TreeLowering.Proofs.Regime.Every

namespace TreeLowering.Tree.ScopeTree

/-- What a name stands for is in the table of some scope. -/
theorem mem_of_resolve? {tree : ScopeTree} {scope : ScopeId} {name : Name} {nameClass : NameClass}
    {symbol : Symbol} (resolved : tree.resolve? scope name nameClass = some symbol) :
    ∃ found ∈ tree.scopes, (name, symbol) ∈ found.table nameClass := by
  unfold resolve? at resolved
  generalize tree.size = fuel at resolved
  induction fuel generalizing scope with
  | zero => cases resolved
  | succ fuel inductionHypothesis =>
    unfold resolveWithin at resolved
    obtain ⟨found, stored, resolved⟩ := Option.bind_eq_some_iff.1 resolved
    cases own : found.find? nameClass name with
    | some symbol' =>
      rw [own] at resolved
      cases resolved
      obtain ⟨before, after, split, _⟩ := List.lookup_eq_some_iff.1 own
      refine ⟨found, Array.mem_of_getElem? stored, ?_⟩
      rw [split]
      exact List.mem_append_right _ List.mem_cons_self
    | none =>
      rw [own] at resolved
      obtain ⟨outer, _, resolved⟩ := Option.bind_eq_some_iff.1 resolved
      exact inductionHypothesis resolved

end TreeLowering.Tree.ScopeTree

namespace TreeLowering.Ir

/-! ### Typed addresses -/

/-- What an instruction does with addresses and with functions agrees with their types. -/
def Instruction.Addressed (inst : Instruction) : Prop :=
  match inst.op with
  | .load address => ∃ mutable, address.ty = .ptr inst.ty mutable
  | .store address _ => ∃ pointee mutable, address.ty = .ptr pointee mutable
  | .gep baseTy base _ =>
    ∃ elemTy mutable, base.ty = .ptr baseTy mutable ∧ inst.ty = .ptr elemTy mutable
  | .alloca allocated => inst.ty = .ptr allocated true
  | .call callee _ => ∃ name params, callee = .global name (.func params inst.ty)
  | _ => True

/-- A branch is taken on a truth value. -/
def Terminator.Tested : Terminator → Prop
  | .branch test _ _ => test.ty = .bool
  | _ => True

/-- A global that is declared is found, and so are the globals from before. -/
theorem Module.global?_declareGlobal {target second : Module} {global : Global} {address : Value}
    (declared : target.declareGlobal global = .ok address second) :
    second.global? global.name = some global ∧
      ∀ name earlier, target.global? name = some earlier → second.global? name = some earlier := by
  obtain ⟨-, ⟨missing, rfl⟩ | ⟨found, rfl⟩⟩ := declareGlobal_ok declared
  · refine ⟨?_, fun name earlier found => ?_⟩
    · rw [global?_addGlobal, missing, Option.none_or, if_pos rfl]
    · rw [global?_addGlobal, found, Option.some_or]
  · exact ⟨found, fun _ _ => id⟩

end TreeLowering.Ir

namespace TreeLowering.Lowering

open TreeLowering.Ir TreeLowering.Tree Relation

/-! ### The invariant -/

/-- Every constant that a name stands for is declared under its link name, with its type. -/
def Source.ConstantsDeclared (source : Source) : Prop :=
  ∀ scope name link ty, source.program.scopes.resolve? scope name .value = some (.const link ty) →
    ∃ decl, .const decl ∈ source.program.items ∧
      source.names.text decl.name = source.names.text link ∧
      source.translation decl.ty = source.translation ty

/-- It is enough to look at the tables of all scopes. -/
theorem Source.ConstantsDeclared.of_tables {source : Source}
    (tables : ∀ scope ∈ source.program.scopes.scopes, ∀ entry ∈ scope.values, ∀ link ty,
      entry.2 = .const link ty → ∃ decl, .const decl ∈ source.program.items ∧
        source.names.text decl.name = source.names.text link ∧
        source.translation decl.ty = source.translation ty) : source.ConstantsDeclared := by
  intro scope name link ty resolved
  obtain ⟨found, member, listed⟩ := ScopeTree.mem_of_resolve? resolved
  exact tables found member _ listed link ty rfl

/-- What holds between any two steps, once the items in `done` are declared. -/
structure Addressing (source : Source) (done : List Item) (work : Work) : Prop where
  every : work.builder.target.Every (fun _ => Instruction.Addressed) Terminator.Tested
  truthful : TypeState.Truthful source ⟨work.memo, work.builder.target⟩
  idle : work.memo.pending = []
  consts : ∀ decl, .const decl ∈ done → ∃ global,
    work.builder.target.global? (source.names.text decl.name) = some global ∧
      global.ty = source.translation decl.ty

namespace Addressing

variable {source : Source} {done : List Item} {work : Work}

theorem adds (holds : Addressing source done work) {after : Builder}
    (adds : work.builder.Adds (fun _ => Instruction.Addressed) Terminator.Tested after) :
    Addressing source done { work with builder := after } := by
  refine ⟨adds.every holds.every, holds.truthful.of_types adds.types, holds.idle,
    fun decl member => ?_⟩
  obtain ⟨global, found, same⟩ := holds.consts decl member
  exact ⟨global, (Module.global?_of_globals adds.globals _).trans found, same⟩

theorem mapType (formed : source.WellFormed) (holds : Addressing source done work) (ty : TypeId) :
    Returns (mapType source ty) ⟨work.memo, work.builder.target⟩ fun found after =>
      Addressing source done (work.mapped after) ∧ found = source.translation ty := by
  intro found after returned
  obtain ⟨⟨truthful, idle⟩, right⟩ :=
    (ends_mapType formed.mappable holds.truthful holds.idle ty).of_ok returned
  have only := (ensures_mapTypeWithin source source.typeDepth ty _).of_ok returned
  refine ⟨⟨holds.every.declares (.of_functions only.functions), truthful, idle, ?_⟩, right⟩
  intro decl member
  obtain ⟨global, found, typed⟩ := holds.consts decl member
  exact ⟨global, (Module.global?_of_globals only.globals _).trans found, typed⟩

theorem declareGlobal (holds : Addressing source done work) (global : Global) :
    Returns (Build.declare fun target => target.declareGlobal global) work.builder fun _ after =>
      Addressing source done { work with builder := after } ∧
        after.target.global? global.name = some global := by
  refine Build.returns_declare fun address target declared => ?_
  obtain ⟨found, kept⟩ := Module.global?_declareGlobal declared
  refine ⟨⟨holds.every.declares (.of_functions (Module.declareGlobal_elsewhere declared).2),
    holds.truthful.of_types (Module.declareGlobal_elsewhere declared).1, holds.idle, ?_⟩, found⟩
  intro decl member
  obtain ⟨earlier, stored, typed⟩ := holds.consts decl member
  exact ⟨earlier, kept _ _ stored, typed⟩

end Addressing

/-! ### Declarations -/

section Declarations

variable {source : Source} {done : List Item} {context : Context}

theorem addressing_declareItem (formed : source.WellFormed) (item : Item)
    (holds : Addressing source done context.work) :
    Returns (declareItem source item) context fun _ after =>
      Addressing source (done ++ [item]) after.work := by
  -- an item that is no constant adds nothing to what is declared
  have others : ∀ {work : Work}, Addressing source done work →
      (∀ decl, item ≠ .const decl) → Addressing source (done ++ [item]) work := by
    intro work holds plain
    refine ⟨holds.every, holds.truthful, holds.idle, fun decl member => ?_⟩
    rcases List.mem_append.1 member with old | new
    · exact holds.consts decl old
    · exact absurd (List.mem_singleton.1 new).symm (plain decl)
  cases item with
  | struct decl =>
    refine returns_discard (returns_mapping ?_)
    exact (holds.mapType formed decl.ty).mono fun _ _ kept => others kept.1 nofun
  | const decl =>
    refine returns_discard ?_
    unfold declareConst
    rw [returns_bind]
    refine returns_mapping ((holds.mapType formed decl.ty).mono ?_)
    rintro _ first ⟨kept, rfl⟩
    refine returns_build ((kept.declareGlobal _).mono fun _ after ⟨kept', found⟩ => ?_)
    refine ⟨kept'.every, kept'.truthful, kept'.idle, fun other member => ?_⟩
    rcases List.mem_append.1 member with old | new
    · exact kept'.consts other old
    · cases List.mem_singleton.1 new
      exact ⟨_, found, rfl⟩
  | function decl => exact returns_pure.2 (others holds nofun)
  | methods group => exact returns_pure.2 (others holds nofun)

theorem addressing_declareItems (formed : source.WellFormed) (items : List Item)
    (holds : Addressing source done context.work) :
    Returns (items.forM (declareItem source)) context fun _ after =>
      Addressing source (done ++ items) after.work := by
  induction items generalizing done context with
  | nil =>
    rw [List.append_nil]
    exact returns_pure.2 holds
  | cons item rest inductionHypothesis =>
    show Returns (declareItem source item >>= fun _ => rest.forM (declareItem source)) context _
    rw [returns_bind]
    refine (addressing_declareItem formed item holds).mono fun _ first kept => ?_
    rw [← List.singleton_append, ← List.append_assoc]
    exact inductionHypothesis kept

theorem Addressing.start (source : Source) (options : Options) :
    Addressing source [] (Context.start options).work :=
  ⟨.empty _, .start source options.moduleName, rfl, nofun⟩

end Declarations

/-! ### Bodies -/

/-- A run beside itself in which addresses are typed. -/
@[reducible] def Diagonal.addressing (source : Source) : Diagonal where
  invariant := Addressing source source.program.items
  sound _ _ := True
  typed value ty := ∃ mutable, value.ty = .ptr ty mutable
  bindable _ _ _ := True
  mapped ty found := found = source.translation ty
  looksUp _ _ := True
  addresses _ _ := True
  namesSlots := True
  excused _ _ := True
  halts _ := False

/-- What constructs emit is addressed. -/
theorem addressed_of_emits {source : Source} {taken : List Name} {op : Operation} {ty : Ty}
    (emits : ((Diagonal.addressing source).pairing taken).Emits ty op) (name : ValueName) :
    Instruction.Addressed ⟨name, ty, op⟩ := by
  cases op with
  | load address => exact emits
  | gep baseTy base indices =>
    obtain ⟨⟨mutable, pointer⟩, elemTy, rfl⟩ := emits
    refine ⟨elemTy, mutable, pointer, ?_⟩
    rw [Build.writable, pointer]
    rfl
  | call callee args => exact emits
  | alloca allocated => exact emits.elim
  | store address value => exact emits.elim
  | _ => trivial

/-- A step of the builder keeps the addresses typed when what it adds is addressed. -/
theorem Diagonal.addressing.keeps {source : Source} {α : Type} {action : BuildM α} {work : Work}
    (holds : Addressing source source.program.items work)
    (adds : Returns action work.builder fun _ after =>
      work.builder.Adds (fun _ => Instruction.Addressed) Terminator.Tested after) :
    Returns action work.builder fun _ after =>
      (Diagonal.addressing source).Keeps work { work with builder := after } :=
  adds.mono fun _ _ adds => .of_free (fun _ => trivial) (holds.adds adds)

theorem Diagonal.addressing.steady {source : Source} (formed : source.WellFormed)
    (declared : source.ConstantsDeclared) : (Diagonal.addressing source).Steady source where
  pardons _ := trivial
  usable _ := .everything
  points pointer := ⟨_, pointer⟩
  plain _ := ⟨trivial, trivial⟩
  slots := trivial
  homed _ _ := trivial
  emits holds emits _ _ :=
    addressing.keeps holds (Build.adds_emitTemp fun _ _ => addressed_of_emits emits _)
  reserves holds _ _ := addressing.keeps holds (Build.adds_alloca fun _ _ _ _ _ => rfl)
  stores holds typed _ _ := by
    refine addressing.keeps holds (Build.adds_store fun step _ _ => ?_)
    cases step with
    | store =>
      obtain ⟨mutable, pointer⟩ := typed
      exact ⟨_, mutable, pointer⟩
    | cast => trivial
    | call name params args => exact ⟨name, params, rfl⟩
  pins holds := addressing.keeps holds (Build.adds_pin _)
  opens holds := addressing.keeps holds (Build.adds_newBlock _)
  starts holds := addressing.keeps holds (Build.adds_ensureEntry _)
  moves holds := addressing.keeps holds (Build.adds_positionAt _ _)
  closes {work terminator} holds tests _ := by
    refine addressing.keeps holds (Build.adds_terminate ?_)
    cases terminator with
    | branch test first second => exact tests test first second rfl
    | _ => trivial
  maps ty holds := (holds.mapType formed ty).mono fun _ _ kept =>
    ⟨.of_free (fun _ => trivial) kept.1, kept.2, trivial⟩
  declares holds _ _ _ _ := addressing.keeps holds Build.adds_declareFunction
  serves _ _ := ⟨trivial, trivial, fun _ _ _ => trivial⟩
  defines holds _ := (holds.declareGlobal _).mono fun _ _ kept =>
    .of_free (fun _ => trivial) ⟨kept.1.every, kept.1.truthful, kept.1.idle, kept.1.consts⟩
  texts _ _ := trivial
  constants {work scope name link ty found} holds resolved mapped global stored := by
    obtain ⟨decl, member, text, same⟩ := declared scope name link ty resolved
    obtain ⟨global', stored', typed⟩ := holds.consts decl member
    rw [text] at stored'
    cases stored.symm.trans stored'
    refine ⟨⟨false, ?_⟩, trivial⟩
    show Ty.ptr global.ty false = _
    rw [typed, same, mapped]

/-- In an accepted program whose constants are declared with their types, the addresses of every
instruction are typed, whatever the annotations of expressions are. -/
theorem lowerProgram_addressed {source : Source} {options : Options} {target : Module}
    (formed : source.WellFormed) (declared : source.ConstantsDeclared)
    (returned : lowerProgram source options = .ok target) :
    target.Every (fun _ => Instruction.Addressed) Terminator.Tested := by
  have steady := Diagonal.addressing.steady formed declared
  have suits : (Diagonal.addressing source).Suits .idle source := by
    refine ⟨fun taken => ?_, fun _ _ _ _ _ _ _ _ =>
      ⟨fun _ _ => trivial, fun _ _ _ _ _ _ _ => trivial, fun _ _ _ _ _ _ _ _ _ => trivial⟩,
      fun _ _ _ _ _ _ _ _ _ _ _ => trivial⟩
    exact @Pairing.Steady.idle _ source source.program.arena source.program.items taken
      (steady.pairing taken) trivial fun _ => trivial
  have ended := steady.lowerProgram formed suits (steady.returns_declareProgram
    (fun holds => Build.adds_declareFunction.mono fun _ _ => holds.adds)
    (addressing_declareItems formed source.program.items (.start source options)))
  rw [Monitor.silent_idle.lowerProgram, returned] at ended
  obtain ⟨_, work, holds, rfl⟩ := ended
  exact holds.every

/-- `const LIMIT: i32 = 7;`
`fn capped(flag: bool) -> i32 { let mut best = LIMIT; if flag { best = capped(false) } best }` -/
def capped : Source where
  names := (((((((NameTable.initial.intern "capped").2).intern "flag").2).intern "LIMIT").2).intern
    "best").2
  program :=
    { types := .initial
      scopes := (ScopeTree.initial.define .root .value ⟨3⟩ (.const ⟨3⟩ .i32)).define .root .value
        ⟨1⟩ (.function ⟨1⟩ .i32)
      arena := ⟨#[⟨.path [⟨3⟩], .nowhere, .i32⟩, ⟨.path [⟨2⟩], .nowhere, .bool⟩,
        ⟨.path [⟨1⟩], .nowhere, .i32⟩, ⟨.bool false, .nowhere, .bool⟩,
        ⟨.call ⟨2⟩ [⟨3⟩], .nowhere, .i32⟩, ⟨.path [⟨4⟩], .nowhere, .i32⟩,
        ⟨.assign ⟨5⟩ ⟨4⟩, .nowhere, .unit⟩, ⟨.cond ⟨1⟩ ⟨6⟩ none, .nowhere, .unit⟩,
        ⟨.path [⟨4⟩], .nowhere, .i32⟩,
        ⟨.block .root [.bind (.ident ⟨4⟩ true) .i32 (some ⟨0⟩) .nowhere, .semi ⟨7⟩] (some ⟨8⟩),
          .nowhere, .i32⟩]⟩
      items := [.const ⟨⟨3⟩, .i32, .int 7, .nowhere⟩, .function
        { name := ⟨1⟩
          link := ⟨1⟩
          params := [⟨⟨2⟩, .bool, false, .nowhere⟩]
          ret := .i32
          body := some ⟨9⟩
          scope := .root
          span := .nowhere }] }

theorem capped_addressed : capped.WellFormed ∧ capped.ConstantsDeclared ∧
    ∃ target, lowerProgram capped .standard = .ok target ∧
      target.Every (fun _ => Instruction.Addressed) Terminator.Tested := by
  have formed : capped.WellFormed :=
    .of_initial rfl (by decide)
      ((((NameTable.Made.initial.intern _).intern _).intern _).intern _) (by decide)
      (by decide +kernel)
  have declared : capped.ConstantsDeclared := by
    refine .of_tables fun scope member entry listed link ty const => ?_
    have tables : capped.program.scopes.scopes =
        #[⟨none, [(⟨1⟩, .function ⟨1⟩ .i32), (⟨3⟩, .const ⟨3⟩ .i32)], []⟩] := rfl
    rw [tables] at member
    obtain rfl := Array.mem_singleton.1 member
    rcases List.mem_cons.1 listed with rfl | listed
    · cases const
    · obtain rfl := List.mem_singleton.1 listed
      cases const
      exact ⟨_, List.mem_cons_self, rfl, rfl⟩
  have returned : ∃ target, lowerProgram capped .standard = .ok target := ⟨_, by cbv⟩
  obtain ⟨target, returned⟩ := returned
  exact ⟨formed, declared, target, returned, lowerProgram_addressed formed declared returned⟩

end TreeLowering.Lowering
