/-
This file defines the types of the instruction set and their text. Struct types are referred to by
name; their fields are kept in the module that declares them. Unit and never are different types
that share the text `void`.
-/

namespace TreeLowering.Ir

/-- Scalar types and the two types without content. -/
inductive Prim where
  | bool | char | i32 | u32 | isize | usize | u8
  | unit | never
deriving DecidableEq, Repr, Inhabited

namespace Prim

/-- Size in bytes. -/
def size : Prim → UInt64
  | bool | u8 => 1
  | char | i32 | u32 => 4
  | isize | usize => 8
  | unit | never => 0

def isInteger : Prim → Bool
  | char | i32 | u32 | isize | usize | u8 => true
  | bool | unit | never => false

/-- Signed integers take the signed form of division, remainder, right shift and comparison. -/
def isSigned : Prim → Bool
  | i32 | isize => true
  | _ => false

def isVoid : Prim → Bool
  | unit | never => true
  | _ => false

def text : Prim → String
  | bool => "bool"
  | char => "char"
  | i32 => "i32"
  | u32 => "u32"
  | isize => "isize"
  | usize => "usize"
  | u8 => "u8"
  | unit | never => "void"

end Prim

/-- A type of the instruction set. -/
inductive Ty where
  | prim (prim : Prim)
  | ptr (pointee : Ty) (mutable : Bool)
  | array (elem : Ty) (len : UInt64)
  /-- A struct, by name. -/
  | struct (name : String)
  /-- A pointer together with a length. -/
  | slice (elem : Ty)
  | func (params : List Ty) (ret : Ty)
  /-- The type of a block used as an operand. -/
  | label
  /-- A type that could not be resolved. -/
  | unresolved (name : String)
deriving Repr, Inhabited

namespace Ty

def bool : Ty := .prim .bool
def char : Ty := .prim .char
def i32 : Ty := .prim .i32
def u32 : Ty := .prim .u32
def isize : Ty := .prim .isize
def usize : Ty := .prim .usize
def u8 : Ty := .prim .u8
def unit : Ty := .prim .unit
def never : Ty := .prim .never

/-! ### Equality -/

mutual

/-- Whether two types are the same, part by part. -/
def same : Ty → Ty → Bool
  | prim left, prim right => left == right
  | ptr left mutable, ptr right mutable' => same left right && mutable == mutable'
  | array left len, array right len' => same left right && len == len'
  | struct left, struct right => left == right
  | slice left, slice right => same left right
  | func params ret, func params' ret' => sameAll params params' && same ret ret'
  | label, label => true
  | unresolved left, unresolved right => left == right
  | _, _ => false

/-- Whether two lists hold the same types in the same order. -/
def sameAll : List Ty → List Ty → Bool
  | [], [] => true
  | left :: lefts, right :: rights => same left right && sameAll lefts rights
  | _, _ => false

end

mutual

theorem same_iff : ∀ left right : Ty, same left right = true ↔ left = right
  | prim _, right => by cases right <;> simp [same]
  | ptr pointee _, right => by cases right <;> simp [same, same_iff pointee]
  | array elem _, right => by cases right <;> simp [same, same_iff elem]
  | struct _, right => by cases right <;> simp [same]
  | slice elem, right => by cases right <;> simp [same, same_iff elem]
  | func params ret, right => by
    cases right <;> simp [same, same_iff ret, sameAll_iff params]
  | label, right => by cases right <;> simp [same]
  | unresolved _, right => by cases right <;> simp [same]

theorem sameAll_iff : ∀ lefts rights : List Ty, sameAll lefts rights = true ↔ lefts = rights
  | [], rights => by cases rights <;> simp [sameAll]
  | left :: lefts, rights => by
    cases rights <;> simp [sameAll, same_iff left, sameAll_iff lefts]

end

instance : DecidableEq Ty := fun left right =>
  decidable_of_iff (same left right = true) (same_iff left right)

/-! ### Questions about a type -/

def asPrim? : Ty → Option Prim
  | prim found => some found
  | _ => none

def isBool (ty : Ty) : Bool := ty == bool

def isPtr : Ty → Bool
  | ptr .. => true
  | _ => false

/-- Whether the type is unit or never. -/
def isVoid : Ty → Bool
  | prim found => found.isVoid
  | _ => false

/-- Structs and arrays are moved between addresses as a block. -/
def isAggregate : Ty → Bool
  | struct _ | array .. => true
  | _ => false

/-- Whether opcodes take their signed form for operands of this type. -/
def isSigned : Ty → Bool
  | prim found => found.isSigned
  | _ => false

/-- What a pointer points at, and whether it may write there. -/
def pointee? : Ty → Option (Ty × Bool)
  | ptr pointee mutable => some (pointee, mutable)
  | _ => none

/-! ### Text -/

mutual

/-- The text of a type. -/
def text : Ty → String
  | prim found => found.text
  | ptr pointee false => "ptr " ++ text pointee
  | ptr pointee true => "ptr mut " ++ text pointee
  | array elem len => "[" ++ toString len ++ " x " ++ text elem ++ "]"
  | struct name => "%" ++ name
  | slice elem => "slice " ++ text elem
  | func params ret => "fn(" ++ textAll params ++ ") -> " ++ text ret
  | label => "label"
  | unresolved name => "opaque " ++ name

/-- The texts of several types, separated by commas. -/
def textAll : List Ty → String
  | [] => ""
  | [ty] => text ty
  | ty :: rest => text ty ++ ", " ++ textAll rest

end

end Ty

end TreeLowering.Ir
