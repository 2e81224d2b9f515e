/-
This file says when a module has everything that its parts refer to. An operand refers to struct
types by its type, to a function or a global when it is an address, and to the bytes of a global when
it is a slice. References survive any growth of the module: structs, functions and globals are added,
and what is there keeps its fields, its signature and its content.
-/

import TreeLowering.Proofs.Independence.Canonical
import TreeLowering.Proofs.Regime.Every
import TreeLowering.Proofs.Tables.Struct

namespace TreeLowering.Ir

/-! ### Constants -/

/-- All slices inside the constant are as `held` says. -/
inductive Constant.Within (held : String → UInt64 → Prop) : Constant → Prop
  | int (value : Int) : Within held (.int value)
  | bool (value : Bool) : Within held (.bool value)
  | char (value : Char) : Within held (.char value)
  | bytes (content : List UInt8) : Within held (.bytes content)
  | slice {global : String} {len : UInt64} (found : held global len) :
      Within held (.slice global len)
  | array {items : List Constant} (parts : ∀ item ∈ items, Within held item) :
      Within held (.array items)
  | struct {items : List Constant} (parts : ∀ item ∈ items, Within held item) :
      Within held (.struct items)
  | unit : Within held .unit

theorem Constant.Within.mono {held held' : String → UInt64 → Prop} {constant : Constant}
    (within : constant.Within held) (more : ∀ global len, held global len → held' global len) :
    constant.Within held' := by
  induction within with
  | int value => exact .int value
  | bool value => exact .bool value
  | char value => exact .char value
  | bytes content => exact .bytes content
  | slice found => exact .slice (more _ _ found)
  | array _ inductionHypothesis => exact .array inductionHypothesis
  | struct _ inductionHypothesis => exact .struct inductionHypothesis
  | unit => exact .unit

theorem Constant.Within.of_scalar {held : String → UInt64 → Prop} {constant : Constant}
    (scalar : constant.isScalar = true) : constant.Within held := by
  cases constant with
  | int value => exact .int value
  | bool value => exact .bool value
  | char value => exact .char value
  | unit => exact .unit
  | _ => cases scalar

/-! ### Texts -/

theorem length_toList_loop (bytes : ByteArray) (index : Nat) (read : List UInt8) :
    (ByteArray.toList.loop bytes index read).length = (bytes.size - index) + read.length := by
  fun_induction ByteArray.toList.loop bytes index read with
  | case1 index read inside inductionHypothesis =>
    rw [inductionHypothesis, List.length_cons]
    omega
  | case2 index read outside =>
    rw [List.length_reverse]
    omega

/-- A text has as many bytes as its encoding. -/
theorem length_toUTF8 (text : String) : text.toUTF8.toList.length = text.utf8ByteSize := by
  rw [ByteArray.toList, length_toList_loop]
  simp

/-! ### References -/

namespace Module

/-- The operand is the address of a function or a global of the module. -/
def Links (target : Module) (address : Value) : Prop :=
  (∃ function ∈ target.functions, address = .global function.name function.signature) ∨
    ∃ global ∈ target.globals, address = global.address

/-- The global holds a byte string of exactly this length. A length is kept in a word of 64 bits,
which is exact for every string that has fewer bytes than there are words. -/
def Holds (target : Module) (name : String) (len : UInt64) : Prop :=
  ∃ global ∈ target.globals, global.name = name ∧
    ∃ content, global.init = .bytes content ∧ len = content.length.toUInt64 ∧
      (content.length < UInt64.size → len.toNat = content.length)

/-- The second module has what the first one has. -/
structure Expands (first second : Module) : Prop where
  knows : ∀ name, first.Knows name → second.Knows name
  signatures : ∀ function ∈ first.signatures, function ∈ second.signatures
  globals : ∀ global ∈ first.globals, global ∈ second.globals

variable {first second third : Module}

theorem Expands.refl (target : Module) : target.Expands target :=
  ⟨fun _ => id, fun _ => id, fun _ => id⟩

theorem Expands.trans (earlier : first.Expands second) (later : second.Expands third) :
    first.Expands third :=
  ⟨fun name known => later.knows name (earlier.knows name known),
    fun function member => later.signatures function (earlier.signatures function member),
    fun global member => later.globals global (earlier.globals global member)⟩

theorem mem_signatures {target : Module} {function : Function} (member : function ∈ target.functions) :
    function.bare ∈ target.signatures :=
  List.mem_map_of_mem (Array.mem_toList_iff.2 member)

theorem Expands.links (expands : first.Expands second) {address : Value}
    (links : first.Links address) : second.Links address := by
  rcases links with ⟨function, member, rfl⟩ | ⟨global, member, rfl⟩
  · obtain ⟨function', member', same⟩ :=
      List.mem_map.1 (expands.signatures _ (mem_signatures member))
    refine .inl ⟨function', Array.mem_toList_iff.1 member', ?_⟩
    have name : function'.bare.name = function.bare.name := congrArg Function.name same
    have signature : function'.bare.signature = function.bare.signature :=
      congrArg Function.signature same
    exact (congrArg₂ Value.global name signature).symm
  · exact .inr ⟨global, expands.globals global member, rfl⟩

theorem Expands.holds (expands : first.Expands second) {name : String} {len : UInt64}
    (holds : first.Holds name len) : second.Holds name len := by
  obtain ⟨global, member, rest⟩ := holds
  exact ⟨global, expands.globals global member, rest⟩

end Module

/-- What the operand refers to, apart from its type, is in the module. -/
def Value.Refers (target : Module) : Value → Prop
  | .global name ty => target.Links (.global name ty)
  | .const constant _ => constant.Within target.Holds
  | _ => True

/-- Everything that the operand refers to is in the module. -/
structure Value.Closed (target : Module) (value : Value) : Prop where
  ty : value.ty.Within target.Knows
  refers : value.Refers target

/-- The types that an operation names beside those of its operands. -/
def Operation.namedTypes : Operation → List Ty
  | alloca allocated => [allocated]
  | gep baseTy _ _ => [baseTy]
  | _ => []

/-- Everything that the instruction refers to is in the module. -/
structure Instruction.Closed (target : Module) (inst : Instruction) : Prop where
  ty : inst.ty.Within target.Knows
  types : ∀ ty ∈ inst.op.namedTypes, ty.Within target.Knows
  operands : ∀ value ∈ inst.op.operands, value.Closed target

/-- Everything that the terminator refers to is in the module. -/
def Terminator.Closed (target : Module) (terminator : Terminator) : Prop :=
  ∀ value ∈ terminator.operands, value.Closed target

section Growth

variable {first second : Module} (expands : first.Expands second)

include expands

theorem Value.Closed.expand {value : Value} (closed : value.Closed first) :
    value.Closed second := by
  refine ⟨closed.ty.mono expands.knows, ?_⟩
  have refers := closed.refers
  cases value with
  | global name ty => exact expands.links refers
  | const constant ty => exact Constant.Within.mono refers fun _ _ => expands.holds
  | _ => trivial

theorem Instruction.Closed.expand {inst : Instruction} (closed : inst.Closed first) :
    inst.Closed second :=
  ⟨closed.ty.mono expands.knows, fun ty member => (closed.types ty member).mono expands.knows,
    fun value member => (closed.operands value member).expand expands⟩

theorem Terminator.Closed.expand {terminator : Terminator} (closed : terminator.Closed first) :
    terminator.Closed second := fun value member => (closed value member).expand expands

end Growth

/-! ### Operands at hand -/

variable {target : Module} {ty : Ty}

/-- A placeholder refers to nothing but its type. -/
theorem Value.closed_undef : (Value.undef ty).Closed target ↔ ty.Within target.Knows :=
  ⟨Closed.ty, fun within => ⟨within, trivial⟩⟩

/-- What lowering makes without a step is closed when its parts are. -/
theorem Value.usable_closed (target : Module) : Lowering.Usable (Value.Closed target) where
  types closed := closed_undef.2 closed.ty
  registers admits := ⟨admits.ty, trivial⟩
  scalars scalar admits := ⟨admits.ty, Constant.Within.of_scalar scalar⟩
  prims prim := closed_undef.2 (.prim prim)
  pointers {ty mutable} := by
    rw [closed_undef, closed_undef]
    refine ⟨fun within => ?_, .ptr⟩
    cases within with
    | ptr part => exact part
  elements {elem len} admits := by
    cases admits.ty with
    | array part => exact closed_undef.2 part

/-- A function of the module is called by an operand that refers to it. -/
theorem Value.closed_function {function : Function} (member : function ∈ target.functions)
    (within : function.signature.Within target.Knows) :
    (Value.global function.name function.signature).Closed target :=
  ⟨within, .inl ⟨function, member, rfl⟩⟩

theorem Value.closed_address {global : Global} (member : global ∈ target.globals)
    (within : global.ty.Within target.Knows) : global.address.Closed target :=
  ⟨.ptr within, .inr ⟨global, member, rfl⟩⟩

/-- A slice over a byte string is closed when it is as long as the string. -/
theorem Value.closed_slice {global : Global} {content : List UInt8} {len : UInt64}
    (member : global ∈ target.globals) (init : global.init = .bytes content)
    (length : len = content.length.toUInt64) :
    (Value.const (.slice global.name len) (.slice .u8)).Closed target :=
  ⟨.slice (.prim .u8), .slice ⟨global, member, rfl, content, init, length, fun fits => by
    rw [length]
    exact Nat.mod_eq_of_lt fits⟩⟩

/-- A law that follows from another one holds of whatever the other one holds of. -/
theorem Module.Every.mono {inst inst' : FuncId → Instruction → Prop}
    {exit exit' : Terminator → Prop} (every : target.Every inst exit)
    (insts : ∀ func entry, inst func entry → inst' func entry)
    (exits : ∀ terminator, exit terminator → exit' terminator) : target.Every inst' exit' :=
  fun func function found id block stored =>
    have held := every func function found id block stored
    ⟨fun entry member => insts func entry (held.insts entry member),
      fun terminator closed => exits terminator (held.exit terminator closed)⟩

end TreeLowering.Ir
