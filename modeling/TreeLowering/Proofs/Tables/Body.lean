/-
This file keeps the books while bodies are lowered. A body only uses operands that refer to what is
in the books, and whatever it declares on the way is there before it is used: the structs of a type
that is mapped late, a function that a name stands for, the text of a string literal, and the copy
routine. So in an accepted program the books are in order at the end.
-/

import TreeLowering.Proofs.Pair.Program
import TreeLowering.Proofs.Tables.Entry

namespace TreeLowering.Lowering

open TreeLowering.Ir TreeLowering.Tree

/-! ### Summoned functions -/

/-- A body looks up a name that stands for the function with this link name. -/
def Source.Mentions (source : Source) (link : String) : Prop :=
  ∃ scope name symbol ty, source.LooksUp scope name ∧
    source.program.scopes.resolve? scope name .value = some (.function symbol ty) ∧
    source.names.text symbol = link

/-- What a body may declare a function for: a name that it looks up, or a copy. -/
def Source.Summons (source : Source) (options : Options) (name : String) : Prop :=
  name = options.copySymbol ∨ source.Mentions name

/-- The books of a program whose items and signatures are declared: whatever else has been declared
was summoned. -/
def Kept (source : Source) (options : Options) (work : Work) : Prop :=
  ∃ others, (∀ name ∈ others, source.Summons options name) ∧
    Ledger source options source.program.items source.program.functions others work

/-- The books are still in order, and nothing is gone from the module. -/
structure Grown (source : Source) (options : Options) (work after : Work) : Prop where
  kept : Kept source options after
  expands : work.builder.target.Expands after.builder.target

/-- What runs have in common when their books are in order. -/
@[reducible] def Diagonal.ledger (source : Source) (options : Options) : Diagonal where
  invariant := Kept source options
  sound work value := value.Closed work.builder.target
  typed _ _ := True
  bindable _ _ _ := True
  mapped ty found := found = source.translation ty
  looksUp := source.LooksUp
  addresses _ _ := True
  namesSlots := True
  excused _ _ := True
  halts _ := False

section Steps

variable {source : Source} {options : Options} {first second third work : Work}

theorem Grown.trans (earlier : Grown source options first second)
    (later : Grown source options second third) : Grown source options first third :=
  ⟨later.kept, earlier.expands.trans later.expands⟩

/-- Operands that could be used can still be used. -/
theorem Grown.keeps (grown : Grown source options first second) :
    (Diagonal.ledger source options).Keeps first second :=
  ⟨grown.kept, fun _ closed => closed.expand grown.expands⟩

namespace Kept

variable (kept : Kept source options work)

include kept

/-! ### Code -/

/-- A step that writes code which refers to what is there, and declares nothing. -/
theorem wrote {α : Type} {action : BuildM α}
    (adds : Returns action work.builder fun _ after =>
      work.builder.Adds (fun _ => Instruction.Closed work.builder.target)
        (Terminator.Closed work.builder.target) after)
    (settled : Returns action work.builder fun _ after => work.builder.Settled after) :
    Returns action work.builder fun _ after =>
      Grown source options work { work with builder := after } := by
  intro result after returned
  obtain ⟨others, summoned, ledger⟩ := kept
  obtain ⟨ledger', expands⟩ := ledger.wrote (adds result after returned)
    (settled result after returned)
  exact ⟨⟨others, summoned, ledger'⟩, expands⟩

theorem emitTemp (op : Operation) {ty : Ty} (within : ty.Within work.builder.target.Knows)
    (types : ∀ ty ∈ op.namedTypes, ty.Within work.builder.target.Knows)
    (operands : ∀ value ∈ op.operands, value.Closed work.builder.target) :
    Returns (Build.emitTemp op ty) work.builder fun _ after =>
      Grown source options work { work with builder := after } :=
  kept.wrote (Build.adds_emitTemp fun _ _ => ⟨within, types, operands⟩)
    (Build.settled_emitTemp op ty)

theorem alloca {ty : Ty} (within : ty.Within work.builder.target.Knows)
    (variableName : Option String) :
    Returns (Build.alloca ty variableName) work.builder fun _ after =>
      Grown source options work { work with builder := after } :=
  kept.wrote (Build.adds_alloca fun _ _ _ _ _ =>
    ⟨.ptr within, List.forall_mem_singleton.2 within, List.forall_mem_nil _⟩)
    (Build.settled_alloca ty variableName)

/-! ### Functions -/

/-- A function of the module is called, and its parameters are read, by closed operands. -/
theorem serves {func : FuncId} {function : Function}
    (found : work.builder.target.getFunction func = .ok function) :
    (Diagonal.ledger source options).Serves work function := by
  obtain ⟨others, _, ledger⟩ := kept
  have member : function ∈ work.builder.target.functions := by
    unfold Module.getFunction at found
    split at found
    · next stored =>
      cases found
      exact Array.mem_of_getElem? stored
    · cases found
  have within : function.signature.Within work.builder.target.Knows :=
    ledger.roster.signed function.bare (Module.mem_signatures member)
  obtain ⟨params, ret⟩ := Function.signature_within.1 within
  refine ⟨Value.closed_function member within, Value.closed_undef.2 ret,
    fun position value given => ?_⟩
  obtain ⟨param, listed, rfl⟩ := Option.map_eq_some_iff.1 given
  exact ⟨params param (List.mem_of_getElem? listed), trivial⟩

/-- A function that is summoned may be declared. -/
theorem declareFunction {name : String} {params : List Ir.Param} {ret : Ty}
    (summoned : source.Summons options name)
    (within : (Ty.func (params.map Param.ty) ret).Within work.builder.target.Knows) :
    Returns (Build.declare fun target => target.declareFunction name params ret) work.builder
      fun _ after => Grown source options work { work with builder := after } := by
  obtain ⟨others, known, ledger⟩ := kept
  refine (ledger.declareFunction within).mono ?_
  rintro _ after ⟨expands, _, more, entered, ledger'⟩
  refine ⟨⟨others ++ more, fun other member => ?_, ledger'⟩, expands⟩
  rcases List.mem_append.1 member with old | new
  · exact known other old
  · cases entered with
    | found => cases new
    | added =>
      cases List.mem_singleton.1 new
      exact summoned

/-! ### Stores -/

/-- The copy routine is declared under the name that the options give it. -/
theorem copyRoutine :
    Returns Build.copyRoutine work.builder fun routine after =>
      Grown source options work { work with builder := after } ∧
        routine.Closed after.target := by
  have copy : (Ty.func (Build.copyParams.map Param.ty) .unit).Within work.builder.target.Knows := by
    refine .func (fun ty member => ?_) (.prim .unit)
    simp only [Build.copyParams, List.map_cons, List.map_nil, List.mem_cons, List.not_mem_nil,
      or_false] at member
    rcases member with rfl | rfl | rfl
    · exact .ptr (.prim .u8)
    · exact .ptr (.prim .u8)
    · exact .prim .usize
  have chosen : work.builder.options = options := by
    obtain ⟨_, _, ledger⟩ := kept
    exact ledger.chosen
  unfold Build.copyRoutine
  rw [returns_bind, returns_get, returns_bind]
  refine (kept.declareFunction (.inl (congrArg Options.copySymbol chosen)) copy).mono
    fun func after grown => ?_
  refine Build.returns_ask fun routine named => ⟨grown, ?_⟩
  unfold Module.functionRef at named
  cases found : after.target.getFunction func with
  | error cause =>
    rw [found] at named
    cases named
  | ok function =>
    rw [found] at named
    cases named
    exact (grown.kept.serves found).callee

/-- The load that a store drops was closed, so what it read may be copied from. -/
theorem origin {value origin : Value} {cursor : Cursor} {position : Nat}
    (dropped : work.builder.copySource? value = .ok (some (cursor, position, origin))) :
    origin.Closed work.builder.target := by
  obtain ⟨others, _, ledger⟩ := kept
  obtain ⟨name, ty, function, block, _, _, _, _, stored, found, loaded⟩ :=
    Builder.copySource?_spec dropped
  obtain ⟨later, ty', earlier, split, _⟩ := Builder.findLoad?_spec loaded
  have member : (⟨name, ty', .load origin⟩ : Instruction) ∈ block.insts.toList := by
    rw [← List.mem_reverse, split]
    exact List.mem_append_right _ List.mem_cons_self
  exact ((ledger.code _ function stored _ block found).insts _ member).operands origin
    List.mem_cons_self

/-- A load may be dropped. -/
theorem dropped (func : FuncId) (block : BlockId) (position : Nat) :
    Grown source options work { work with builder := { work.builder with
      target := work.builder.target.modifyBlock func block fun found => found.remove position } } := by
  obtain ⟨others, summoned, ledger⟩ := kept
  have adds : work.builder.Adds (fun _ => Instruction.Closed work.builder.target)
      (Terminator.Closed work.builder.target) { work.builder with
        target := work.builder.target.modifyBlock func block fun found =>
          found.remove position } :=
    ⟨fun every => every.modifyBlock _ _ fun _ kept => kept.remove _, rfl, rfl⟩
  obtain ⟨ledger', expands⟩ := ledger.wrote adds ⟨Module.signatures_modifyBlock .., rfl⟩
  exact ⟨⟨others, summoned, ledger'⟩, expands⟩

/-- A copy refers to both addresses, to the copy routine and to the size of what is copied. -/
theorem copyAggregate {destination origin : Value} (ty : Ty)
    (closed : destination.Closed work.builder.target) (closed' : origin.Closed work.builder.target) :
    Returns (Build.copyAggregate destination origin ty) work.builder fun _ after =>
      Grown source options work { work with builder := after } := by
  have bytes : ∀ {target : Module} {mutable : Bool}, (Ty.ptr .u8 mutable).Within target.Knows :=
    .ptr (.prim .u8)
  have casts : ∀ {work : Work} {value : Value} {mutable : Bool}, Kept source options work →
      value.Closed work.builder.target →
      Returns (Build.cast .bitcast value (.ptr .u8 mutable)) work.builder fun result after =>
        Grown source options work { work with builder := after } ∧
          result.Closed after.target := by
    intro work value mutable kept closed result after returned
    refine ⟨kept.emitTemp (.cast .bitcast value) bytes (List.forall_mem_nil _)
      (List.forall_mem_singleton.2 closed) result after returned, ?_⟩
    have register : Returns (Build.emitTemp (.cast .bitcast value) (.ptr .u8 mutable)) work.builder
        fun result _ => ∃ name, result = .reg name (.ptr .u8 mutable) :=
      Build.returns_emitTemp fun _ _ _ => ⟨_, rfl⟩
    obtain ⟨name, rfl⟩ := register result after returned
    exact ⟨bytes, trivial⟩
  unfold Build.copyAggregate
  rw [returns_bind]
  refine Build.returns_measure fun size _ => ?_
  rw [returns_bind]
  refine kept.copyRoutine.mono fun routine second ⟨grown, called⟩ => ?_
  rw [returns_bind]
  refine (casts grown.kept (closed.expand grown.expands)).mono
    fun destination' third ⟨grown', cast⟩ => ?_
  rw [returns_bind]
  have now := grown.expands.trans grown'.expands
  refine (casts grown'.kept (closed'.expand now)).mono fun origin' fourth ⟨grown'', cast'⟩ => ?_
  rw [returns_bind]
  have operands : ∀ value ∈ Operation.operands (.call routine [destination', origin',
      .int size.toNat .usize]), value.Closed fourth.target := by
    intro value member
    simp only [Operation.operands, List.mem_cons, List.not_mem_nil, or_false] at member
    rcases member with rfl | rfl | rfl | rfl
    · exact called.expand (grown'.expands.trans grown''.expands)
    · exact cast.expand grown''.expands
    · exact cast'
    · exact ⟨.prim .usize, .int _⟩
  refine (grown''.kept.emitTemp (.call ..) (.prim .unit) (List.forall_mem_nil _) operands).mono
    fun _ after last => ?_
  exact returns_pure.2 (((grown.trans grown').trans grown'').trans last)

theorem store {address value : Value} (closed : address.Closed work.builder.target)
    (closed' : value.Closed work.builder.target) :
    Returns (Build.store address value) work.builder fun _ after =>
      Grown source options work { work with builder := after } := by
  unfold Build.store
  rw [returns_bind]
  refine Build.returns_measure fun behind dropped => ?_
  cases behind with
  | none =>
    simp only
    rw [returns_bind]
    refine (kept.emitTemp (.store address value) (.prim .unit) (List.forall_mem_nil _)
      (List.forall_mem_cons.2 ⟨closed, List.forall_mem_singleton.2 closed'⟩)).mono fun _ _ grown => ?_
    exact returns_pure.2 grown
  | some found =>
    obtain ⟨cursor, position, origin⟩ := found
    simp only
    rw [returns_bind]
    unfold Build.removeAt
    rw [returns_bind]
    refine Build.returns_ask fun _ _ => ?_
    rw [returns_bind, Build.returns_change, returns_pure]
    have removed := kept.dropped cursor.func cursor.block position
    exact (removed.kept.copyAggregate value.ty (closed.expand removed.expands)
      ((kept.origin dropped).expand removed.expands)).mono fun _ _ grown => removed.trans grown

end Kept

/-! ### Bodies -/

/-- Every step of a body leaves the books in order. -/
theorem Diagonal.ledger.steady (formed : source.WellFormed) :
    (Diagonal.ledger source options).Steady source where
  pardons _ := trivial
  usable work := Value.usable_closed work.builder.target
  points _ := trivial
  plain _ := ⟨trivial, trivial⟩
  slots := trivial
  homed _ _ := trivial
  emits {taken work op ty} kept emits reads admits := by
    refine (kept.emitTemp op admits.ty (fun other member => ?_) reads.operands).mono
      fun _ _ grown => grown.keeps
    cases op with
    | gep baseTy base indices =>
      cases List.mem_singleton.1 member
      exact (reads.steps _ base indices rfl).ty
    | alloca allocated => exact emits.elim
    | _ => cases member
  reserves kept _ admits := (kept.alloca admits.ty _).mono fun _ _ grown => grown.keeps
  stores kept _ address value := (kept.store address value).mono fun _ _ grown => grown.keeps
  pins kept := (kept.wrote (Build.adds_pin _) (Build.settled_pin _)).mono
    fun _ _ grown => grown.keeps
  opens kept := (kept.wrote (Build.adds_newBlock _) (Build.settled_newBlock _)).mono
    fun _ _ grown => grown.keeps
  starts kept := (kept.wrote (Build.adds_ensureEntry _) (Build.settled_ensureEntry _)).mono
    fun _ _ grown => grown.keeps
  moves kept := (kept.wrote (Build.adds_positionAt _ _) (Build.settled_positionAt _ _)).mono
    fun _ _ grown => grown.keeps
  closes kept _ operands := (kept.wrote (Build.adds_terminate operands)
    (Build.settled_terminate _)).mono fun _ _ grown => grown.keeps
  maps {work} ty kept := by
    obtain ⟨others, summoned, ledger⟩ := kept
    refine (ledger.mapType formed ty).mono ?_
    rintro found after ⟨ledger', expands, right, within⟩
    have grown : Grown source options work (work.mapped after) :=
      ⟨⟨others, summoned, ledger'⟩, expands⟩
    exact ⟨grown.keeps, right, Value.closed_undef.2 within⟩
  declares {work scope name link ty params ret} kept looked resolved admitted admits := by
    refine (kept.declareFunction (.inr ⟨scope, name, link, ty, looked, resolved, rfl⟩) ?_).mono
      fun _ _ grown => grown.keeps
    refine .func (fun param member => ?_) admits.ty
    obtain ⟨numbered, listed, rfl⟩ := List.mem_map.1 member
    obtain ⟨position, bound, rfl⟩ := List.mem_mapIdx.1 listed
    exact (admitted _ (List.getElem_mem _)).ty
  serves kept found := kept.serves found
  defines {work text} kept _ := by
    obtain ⟨others, summoned, ledger⟩ := kept
    refine (ledger.declareText work.strings.length text).mono ?_
    rintro address after ⟨expands, ledger'⟩
    have grown : Grown source options work
        { work with builder := after, strings := (text, address) :: work.strings } :=
      ⟨⟨others, summoned, ledger'⟩, expands⟩
    exact grown.keeps
  texts {work text name ty} kept found := by
    obtain ⟨others, _, ledger⟩ := kept
    obtain ⟨number, member, same⟩ := ledger.stock.texts text _ found
    cases same
    exact Value.closed_slice member rfl (by rw [length_toUTF8])
  constants {work scope name link ty found} kept _ _ global stored := by
    obtain ⟨others, _, ledger⟩ := kept
    have member := (Module.global?_eq_some_iff.1 stored).1
    exact ⟨trivial, Value.closed_address member (ledger.stock.held global member)⟩

end Steps

/-- In an accepted program the books are in order at the end. -/
theorem kept_of_returned {source : Source} {options : Options} {target : Module}
    (formed : source.WellFormed) (returned : lowerProgram source options = .ok target) :
    ∃ work, Kept source options work ∧ work.builder.target = target := by
  have steady : (Diagonal.ledger source options).Steady source := Diagonal.ledger.steady formed
  have suits : (Diagonal.ledger source options).Suits .idle source := by
    refine ⟨fun taken => ?_, fun _ _ _ _ _ _ _ _ =>
      ⟨fun _ _ => trivial, fun _ _ _ _ _ _ _ => trivial, fun _ _ _ _ _ _ _ _ _ => trivial⟩, ?_⟩
    · exact @Pairing.Steady.idle _ source source.program.arena source.program.items taken
        (steady.pairing taken) trivial fun _ => trivial
    · intro decl listed body given scope expr met name span ty found
      exact ⟨decl, listed, body, given, expr, span, ty, met, found⟩
  have declares : Returns (declareProgram source) (Context.start options) fun _ after =>
      Kept source options after.work :=
    (Ledger.declareProgram formed options).mono fun _ _ ledger => ⟨[], nofun, ledger⟩
  have ended := steady.lowerProgram formed suits declares
  rw [Monitor.silent_idle.lowerProgram, returned] at ended
  exact ended.2

end TreeLowering.Lowering
