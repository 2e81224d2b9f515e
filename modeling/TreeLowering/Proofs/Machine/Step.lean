/-
This file runs functions. An instruction computes a datum from its operands and the store, and sets
its register. A run gets stuck where there is nothing sensible to compute: at a placeholder, at a
register that is not set, at a division by zero, at a shift by the width or more. Calls and the
addresses of globals are left to the world around the module.
-/

import TreeLowering.Proofs.Machine.Memory
import TreeLowering.Proofs.Ssa.Certificate

namespace TreeLowering.Ir

/-! ### Numbers -/

/-- The result of an opcode, if there is one. -/
def BinOp.apply {width : Nat} (op : BinOp) (left right : BitVec width) : Option (BitVec width) :=
  match op with
  | .add => some (left + right)
  | .sub => some (left - right)
  | .mul => some (left * right)
  | .sdiv => if right = 0 then none else some (left.sdiv right)
  | .udiv => if right = 0 then none else some (left.udiv right)
  | .srem => if right = 0 then none else some (left.srem right)
  | .urem => if right = 0 then none else some (left.umod right)
  | .and => some (left &&& right)
  | .or => some (left ||| right)
  | .xor => some (left ^^^ right)
  | .shl => if right.toNat < width then some (left <<< right.toNat) else none
  | .ashr => if right.toNat < width then some (left.sshiftRight right.toNat) else none
  | .lshr => if right.toNat < width then some (left >>> right.toNat) else none

def UnOp.apply {width : Nat} (op : UnOp) (operand : BitVec width) : BitVec width :=
  match op with
  | .neg => -operand
  | .not => ~~~operand

def CmpPred.apply {width : Nat} (pred : CmpPred) (left right : BitVec width) : Bool :=
  match pred with
  | .eq => left == right
  | .ne => left != right
  | .slt => left.slt right
  | .sle => left.sle right
  | .sgt => right.slt left
  | .sge => right.sle left
  | .ult => left.ult right
  | .ule => left.ule right
  | .ugt => right.ult left
  | .uge => right.ule left

namespace Datum

/-- A truth value. -/
def bool (value : Bool) : Datum := .word 1 (BitVec.ofBool value)

/-- Applies an opcode to two numbers of one width. -/
def binary (op : BinOp) : Datum → Datum → Option Datum
  | word width left, word width' right =>
    if same : width' = width then (op.apply left (right.cast same)).map (word width) else none
  | _, _ => none

def unary (op : UnOp) : Datum → Option Datum
  | word width operand => some (word width (op.apply operand))
  | _ => none

/-- Compares two numbers of one width; addresses can only be told apart. -/
def compare (pred : CmpPred) : Datum → Datum → Option Datum
  | word width left, word width' right =>
    if same : width' = width then some (bool (pred.apply left (right.cast same))) else none
  | address left, address right =>
    match pred with
    | .eq => some (bool (left == right))
    | .ne => some (bool (left != right))
    | _ => none
  | _, _ => none

/-- Converts a datum to another type. -/
def convert (kind : CastKind) (ty : Ty) (datum : Datum) : Option Datum :=
  match kind, datum, ty with
  | .bitcast, word width bits, .prim prim =>
    if width = prim.width then some (word width bits) else none
  | .bitcast, address found, .ptr .. => some (address found)
  | .bitcast, address found, .func .. => some (address found)
  | .trunc, word _ bits, .prim prim => some (word prim.width (bits.setWidth prim.width))
  | .zext, word _ bits, .prim prim => some (word prim.width (bits.setWidth prim.width))
  | .sext, word _ bits, .prim prim => some (word prim.width (bits.signExtend prim.width))
  | _, _, _ => none

/-- The number an index stands for. -/
def index? (signed : Bool) : Datum → Option Int
  | word _ bits => some (if signed then bits.toInt else bits.toNat)
  | _ => none

end Datum

/-! ### Addresses inside a value -/

/-- The size of a type, if it has one. -/
def Module.size? (target : Module) (ty : Ty) : Option Nat :=
  (target.sizeOf ty).toOption.map UInt64.toNat

/-- Where a field stands behind the fields before it. -/
def Module.fieldOffset (target : Module) (earlier : List Ty) (field : Ty) : Except Trap UInt64 := do
  let placed ← earlier.foldlM (fun placed other => do placed.place (← target.layout other))
    Layout.empty
  Layout.roundUp placed.size (← target.alignOf field)

/-- What an index leads to inside a value of type `ty`, and how far from its beginning. -/
def Module.stepInto? (target : Module) (ty : Ty) (index : Int) : Option (Ty × Int) :=
  match ty with
  | .array elem _ => do
    let size ← target.size? elem
    return (elem, index * size)
  | .struct name => do
    let fields ← target.structFields? name
    let field ← fields[index.toNat]?
    let offset ← (target.fieldOffset (fields.take index.toNat) field).toOption
    return (field, offset.toNat)
  | _ => none

/-- How far from the beginning of a value of type `ty` the indices lead. -/
def Module.offset? (target : Module) : (ty : Ty) → List Int → Option Int
  | _, [] => some 0
  | ty, index :: rest => do
    let (inner, distance) ← target.stepInto? ty index
    let further ← target.offset? inner rest
    return distance + further

/-! ### Instructions -/

/-- What a module runs in. -/
structure World where
  /-- Where a global or a function is. -/
  address : String → Address
  /-- What a call does, if it comes back. -/
  call : Address → List Datum → Store → Option (Datum × Store)

abbrev Registers := ValueName → Option Datum

/-- The part of a run that changes. -/
structure State where
  regs : Registers
  store : Store

/-- The part of a run that stays. -/
structure Setting where
  world : World
  target : Module
  /-- The arguments, by the names of the parameters. -/
  args : List (String × Datum)

/-- The datum of a constant. Aggregates are constants only in globals. -/
def Setting.constant? (setting : Setting) (constant : Constant) (ty : Ty) : Option Datum :=
  match constant, ty with
  | .int value, .prim prim => some (.word prim.width (BitVec.ofInt prim.width value))
  | .bool value, _ => some (.bool value)
  | .char value, _ => some (.word 32 (BitVec.ofNat 32 value.toNat))
  | .unit, _ => some (.word 0 0)
  | .slice global len, _ =>
    some (.block (addressBytes (setting.world.address global) ++ wordBytes 8 len.toNat))
  | _, _ => none

/-- The datum of an operand. -/
def Setting.operand? (setting : Setting) (regs : Registers) : Value → Option Datum
  | .reg name _ => regs name
  | .param name _ => setting.args.lookup name
  | .global name _ => some (.address (setting.world.address name))
  | .label _ | .undef _ => none
  | .const constant ty => setting.constant? constant ty

def Setting.address? (setting : Setting) (regs : Registers) (value : Value) : Option Address :=
  match setting.operand? regs value with
  | some (.address found) => some found
  | _ => none

/-- The datum an operation computes, and the store it leaves. -/
def Setting.compute? (setting : Setting) (previous : Option BlockId) (ty : Ty) (op : Operation)
    (state : State) : Option (Datum × Store) :=
  let operand? := setting.operand? state.regs
  let pure? (datum : Option Datum) := datum.map fun found => (found, state.store)
  match op with
  | .const value => pure? (operand? value)
  | .alloca _ =>
    some (.address ⟨state.store.fresh, 0⟩, { state.store with fresh := state.store.fresh + 1 })
  | .load address => do
    let found ← setting.address? state.regs address
    let size ← setting.target.size? ty
    pure? (Datum.decode? ty (state.store.read found size))
  | .store address value => do
    let found ← setting.address? state.regs address
    let datum ← operand? value
    return (.word 0 0, state.store.write found datum.encode)
  | .binary op left right => do
    let left ← operand? left
    let right ← operand? right
    pure? (left.binary op right)
  | .unary op operand => do
    let operand ← operand? operand
    pure? (operand.unary op)
  | .cmp pred left right => do
    let left ← operand? left
    let right ← operand? right
    pure? (left.compare pred right)
  | .call callee args => do
    let found ← setting.address? state.regs callee
    let args ← args.mapM operand?
    setting.world.call found args state.store
  | .gep baseTy base indices => do
    let found ← setting.address? state.regs base
    let indices ← indices.mapM fun index => do
      let datum ← operand? index
      datum.index? index.ty.isSigned
    match indices with
    | [] => pure? (some (.address found))
    | first :: rest =>
      let size ← setting.target.size? baseTy
      let further ← setting.target.offset? baseTy rest
      pure? (some (.address (found.shift (first * size + further))))
  | .phi incoming => do
    let source ← previous
    let arm ← incoming.find? fun arm => arm.2 = source
    pure? (operand? arm.1)
  | .cast kind value => do
    let datum ← operand? value
    pure? (datum.convert kind ty)

def State.set (state : State) (name : ValueName) (datum : Datum) (store : Store) : State :=
  ⟨fun found => if found = name then some datum else state.regs found, store⟩

/-- Runs one instruction. -/
def Setting.execute? (setting : Setting) (previous : Option BlockId) (inst : Instruction)
    (state : State) : Option State :=
  (setting.compute? previous inst.ty inst.op state).map fun (datum, store) =>
    state.set inst.name datum store

/-- Runs instructions in order. -/
def Setting.run? (setting : Setting) (previous : Option BlockId) :
    List Instruction → State → Option State
  | [], state => some state
  | inst :: rest, state => do
    setting.run? previous rest (← setting.execute? previous inst state)

/-! ### Functions -/

/-- A point in the run of a function. -/
structure Point where
  /-- The block control came from. -/
  previous : Option BlockId
  block : BlockId
  /-- What is left of the block. -/
  rest : List Instruction
  state : State

/-- How far a run has come. -/
inductive Advance where
  | running (point : Point)
  | returned (result : Option Datum) (store : Store)

/-- The point at the beginning of a block. -/
def Function.enter (function : Function) (source target : BlockId) (state : State) : Point :=
  ⟨some source, target, function.code target, state⟩

/-- Takes one step. -/
def Setting.advance? (setting : Setting) (function : Function) (point : Point) :
    Option Advance :=
  match point.rest with
  | inst :: rest => do
    let state ← setting.execute? point.previous inst point.state
    return .running { point with rest, state }
  | [] => do
    match ← function.exit? point.block with
    | .ret none => return .returned none point.state.store
    | .ret (some value) =>
      return .returned (some (← setting.operand? point.state.regs value)) point.state.store
    | .jump target => return .running (function.enter point.block target point.state)
    | .branch test thenBlock elseBlock =>
      let datum ← setting.operand? point.state.regs test
      if datum = .bool true then
        return .running (function.enter point.block thenBlock point.state)
      else if datum = .bool false then
        return .running (function.enter point.block elseBlock point.state)
      else none

/-- Takes at most `fuel` steps and yields what the function returns. -/
def Setting.finish? (setting : Setting) (function : Function) :
    (fuel : Nat) → Point → Option (Option Datum × Store)
  | 0, _ => none
  | fuel + 1, point =>
    match setting.advance? function point with
    | none => none
    | some (.returned result store) => some (result, store)
    | some (.running next) => setting.finish? function fuel next

/-- Runs a function from its first block on. -/
def Module.call? (target : Module) (world : World) (function : Function) (args : List Datum)
    (fuel : Nat) (store : Store) : Option (Option Datum × Store) :=
  Setting.finish? ⟨world, target, (function.params.map Param.name).zip args⟩ function fuel
    ⟨none, Function.entryId, function.code Function.entryId, ⟨fun _ => none, store⟩⟩

end TreeLowering.Ir
