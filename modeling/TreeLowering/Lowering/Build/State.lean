/-
This file defines the builder, the only part of lowering that changes functions. It holds the module
under construction, the cursor at which instructions are added, and what is kept for the function
being built. Steps of the builder ask the module or change it.
-/

import TreeLowering.Lowering.Error
import TreeLowering.Lowering.Options

namespace TreeLowering.Lowering

open Ir

/-- Where instructions are added. -/
structure Cursor where
  func : FuncId
  block : BlockId
deriving DecidableEq, Repr, Inhabited

/-- A module under construction. The counters and name sets belong to the current function. -/
structure Builder where
  target : Module
  cursor : Option Cursor
  current : Option FuncId
  nextTemp : Nat
  /-- How many stack slots stand at the front of the entry block. -/
  slotCount : Nat
  usedNames : List String
  /-- For each base of a name, the number of the next candidate to try; those before it are in
  use. -/
  nextSuffix : List (String × Nat)
  pinned : List ValueName
  options : Options
deriving Inhabited

namespace Builder

/-- The builder of an empty module. -/
def start (options : Options) : Builder :=
  { target := .empty options.moduleName, cursor := none, current := none, nextTemp := 0,
    slotCount := 0, usedNames := [], nextSuffix := [], pinned := [], options }

/-- How many stack slots an entry block begins with. -/
def leadingSlots (function : Function) : Nat :=
  match function.block? Function.entryId with
  | some entry => (entry.insts.toList.takeWhile fun inst => inst.op.isAlloca).length
  | none => 0

/-- Makes `func` the current function; what was kept for another function is forgotten. -/
def enter (builder : Builder) (func : FuncId) : Builder :=
  if builder.current = some func then builder
  else
    match builder.target.function? func with
    | none => builder
    | some function =>
      { builder with
        current := some func
        nextTemp := 0
        slotCount := leadingSlots function
        usedNames := function.params.map Param.name
        nextSuffix := []
        pinned := [] }

end Builder

/-- Steps of the builder: a failed step keeps what it has done so far. -/
abbrev BuildM := EStateM Error Builder

namespace Build

/-- Asks the module, which stays as it is. -/
def ask (question : Module → Except Ir.Error α) : BuildM α := fun builder =>
  match question builder.target with
  | .ok answer => .ok answer builder
  | .error cause => .error (.ir cause) builder

/-- Asks for something that depends on the size of a type. -/
def measure (question : Builder → Except Trap α) : BuildM α := fun builder =>
  match question builder with
  | .ok answer => .ok answer builder
  | .error cause => .error (.trap cause) builder

/-- Declares something in the module, which keeps what a failed declaration has left behind. -/
def declare (declaration : Module → EStateM.Result Ir.Error Module α) : BuildM α := fun builder =>
  match declaration builder.target with
  | .ok answer target => .ok answer { builder with target }
  | .error cause target => .error (.ir cause) { builder with target }

/-- Changes the module in a way that cannot fail. -/
@[inline] def change (step : Module → Module) : BuildM Unit :=
  modify fun builder => { builder with target := step builder.target }

end Build

end TreeLowering.Lowering
