/-
This file defines the resolved types of a program. A type is a position in the pool. Structural
types (references, arrays, slices, function types) are shared: asking twice for one shape yields
one position, so equal shapes compare by position. Structs are nominal: a struct is found by its
name, and its field list may be set after the struct itself is declared, which is how a struct can
mention itself.
-/

import TreeLowering.Tree.Name

namespace TreeLowering.Tree

/-- A resolved type: its position in a `TypePool`. -/
structure TypeId where
  index : Nat
deriving DecidableEq, Repr, Inhabited

namespace TypeId

/-! ### The types every pool starts with -/

def bool : TypeId := ⟨0⟩
def char : TypeId := ⟨1⟩
def i32 : TypeId := ⟨2⟩
def u32 : TypeId := ⟨3⟩
def isize : TypeId := ⟨4⟩
def usize : TypeId := ⟨5⟩
def u8 : TypeId := ⟨6⟩

/-- Unsized text, met only behind a reference. -/
def str : TypeId := ⟨7⟩
def unit : TypeId := ⟨8⟩

/-- The type without values. -/
def never : TypeId := ⟨9⟩

/-- The stand-in for a type that was left open. -/
def infer : TypeId := ⟨10⟩

/-- The fixed positions in order. -/
def primitives : List TypeId :=
  [bool, char, i32, u32, isize, usize, u8, str, unit, never, infer]

/-- Whether the position is one of the fixed ones. -/
def isPrimitive (ty : TypeId) : Bool := ty.index < primitives.length

end TypeId

/-- A struct with its fields in declared order. -/
structure StructDef where
  name : Name
  fields : List (Name × TypeId)
deriving DecidableEq, Repr

namespace StructDef

/-- The position of the first field called `field`. -/
def fieldIndex? (definition : StructDef) (field : Name) : Option Nat :=
  definition.fields.findIdx? fun entry => entry.1 == field

/-- The position and type of the first field called `field`. -/
def field? (definition : StructDef) (field : Name) : Option (Nat × TypeId) := do
  let index ← definition.fieldIndex? field
  let entry ← definition.fields[index]?
  return (index, entry.2)

end StructDef

/-- The shape of a resolved type. -/
inductive TypeKind where
  | bool | char | i32 | u32 | isize | usize | u8
  | str | unit | never | infer
  | reference (pointee : TypeId) (mutable : Bool)
  | array (elem : TypeId) (len : UInt64)
  | slice (elem : TypeId)
  | function (params : List TypeId) (ret : TypeId)
  | struct (definition : StructDef)
deriving DecidableEq, Repr

instance : Inhabited TypeKind := ⟨.infer⟩

/-- All types of a program, by position. Two maps remember what was added before: structural shapes
by themselves, and structs by name. -/
structure TypePool where
  kinds : Array TypeKind
  interned : List (TypeKind × TypeId)
  structsByName : List (Name × TypeId)
deriving DecidableEq, Repr

namespace TypePool

/-- The pool that holds the primitive types at their fixed positions. -/
def initial : TypePool where
  kinds := #[.bool, .char, .i32, .u32, .isize, .usize, .u8, .str, .unit, .never, .infer]
  interned :=
    [(.infer, .infer), (.never, .never), (.unit, .unit), (.str, .str), (.u8, .u8),
      (.usize, .usize), (.isize, .isize), (.u32, .u32), (.i32, .i32), (.char, .char),
      (.bool, .bool)]
  structsByName := []

instance : Inhabited TypePool := ⟨initial⟩

/-- How many types the pool holds. -/
def size (pool : TypePool) : Nat := pool.kinds.size

/-- The shape of a type; a position outside the pool reads as left open. -/
def kind (pool : TypePool) (ty : TypeId) : TypeKind :=
  pool.kinds[ty.index]?.getD .infer

/-! ### Building types -/

/-- Adds a shape at the end of the pool. -/
def push (pool : TypePool) (kind : TypeKind) : TypeId × TypePool :=
  (⟨pool.kinds.size⟩, { pool with kinds := pool.kinds.push kind })

/-- The position of a structural shape, which is added when it is new. -/
def intern (pool : TypePool) (kind : TypeKind) : TypeId × TypePool :=
  match pool.interned.lookup kind with
  | some ty => (ty, pool)
  | none =>
    let (ty, grown) := pool.push kind
    (ty, { grown with interned := (kind, ty) :: grown.interned })

def reference (pool : TypePool) (pointee : TypeId) (mutable : Bool) : TypeId × TypePool :=
  pool.intern (.reference pointee mutable)

def array (pool : TypePool) (elem : TypeId) (len : UInt64) : TypeId × TypePool :=
  pool.intern (.array elem len)

def slice (pool : TypePool) (elem : TypeId) : TypeId × TypePool :=
  pool.intern (.slice elem)

def function (pool : TypePool) (params : List TypeId) (ret : TypeId) : TypeId × TypePool :=
  pool.intern (.function params ret)

/-- The struct called `name`, if it is declared. -/
def structByName? (pool : TypePool) (name : Name) : Option TypeId :=
  pool.structsByName.lookup name

/-- The struct called `name`, declared without fields when it is new. -/
def declareStruct (pool : TypePool) (name : Name) : TypeId × TypePool :=
  match pool.structByName? name with
  | some ty => (ty, pool)
  | none =>
    let (ty, grown) := pool.push (.struct ⟨name, []⟩)
    (ty, { grown with structsByName := (name, ty) :: grown.structsByName })

/-- Replaces the field list of a struct; any other shape stays as it is. -/
def withFields (fields : List (Name × TypeId)) : TypeKind → TypeKind
  | .struct definition => .struct { definition with fields }
  | other => other

/-- Sets the fields of the struct `ty`; nothing happens when `ty` is no struct. -/
def defineFields (pool : TypePool) (ty : TypeId) (fields : List (Name × TypeId)) : TypePool :=
  { pool with kinds := pool.kinds.modify ty.index (withFields fields) }

/-- Declares the struct called `name` and sets its fields. -/
def struct (pool : TypePool) (name : Name) (fields : List (Name × TypeId)) : TypeId × TypePool :=
  let (ty, declared) := pool.declareStruct name
  (ty, declared.defineFields ty fields)

/-! ### Reading types -/

/-- The definition of a struct type. -/
def structDef? (pool : TypePool) (ty : TypeId) : Option StructDef :=
  match pool.kind ty with
  | .struct definition => some definition
  | _ => none

/-- What a reference refers to, and whether it may write there. -/
def pointee? (pool : TypePool) (ty : TypeId) : Option (TypeId × Bool) :=
  match pool.kind ty with
  | .reference pointee mutable => some (pointee, mutable)
  | _ => none

/-- Whether a type is a reference. -/
def isReference (pool : TypePool) (ty : TypeId) : Bool := (pool.pointee? ty).isSome

/-- Follows at most `fuel` references, counting those it follows. -/
def stripReferences (pool : TypePool) : (fuel : Nat) → TypeId → TypeId × Nat
  | 0, ty => (ty, 0)
  | fuel + 1, ty =>
    match pool.pointee? ty with
    | some (pointee, _) =>
      let (bottom, depth) := pool.stripReferences fuel pointee
      (bottom, depth + 1)
    | none => (ty, 0)

/-- The type below all references around `ty`, and how many there are. A chain of references
without a cycle is shorter than the pool. -/
def peelReferences (pool : TypePool) (ty : TypeId) : TypeId × Nat :=
  pool.stripReferences pool.size ty

end TypePool

end TreeLowering.Tree
