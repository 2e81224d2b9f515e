/-
This file defines what a running program works with. Memory is made of regions, one for each stack
slot or global, and a region is a row of bytes. A number is kept in memory byte by byte with the
lowest first. An address has no number: its bytes are pieces that only make sense together.
-/

import TreeLowering.Ir.Layout

namespace TreeLowering.Ir

/-- A place in memory. -/
structure Address where
  region : Nat
  offset : Int
deriving DecidableEq, Repr, Inhabited

/-- The address that many bytes further on. -/
def Address.shift (address : Address) (distance : Int) : Address :=
  ⟨address.region, address.offset + distance⟩

inductive Byte where
  /-- What a byte is before anything is stored there. -/
  | blank
  | raw (value : UInt8)
  /-- One of the bytes of an address. -/
  | piece (address : Address) (index : Nat)
deriving DecidableEq, Repr, Inhabited

/-- What a register holds. -/
inductive Datum where
  /-- A number of so many bits. The unit value is the number without bits. -/
  | word (width : Nat) (bits : BitVec width)
  | address (address : Address)
  /-- A value that is moved as a whole. -/
  | block (content : List Byte)
deriving DecidableEq

instance : Inhabited Datum := ⟨.block []⟩

/-- Memory, and the region that is handed out next. -/
structure Store where
  bytes : Address → Byte
  fresh : Nat

namespace Store

/-- The bytes from an address on. -/
def read (store : Store) (address : Address) (count : Nat) : List Byte :=
  (List.range count).map fun (index : Nat) => store.bytes (address.shift index)

/-- Puts bytes into memory, from an address on. -/
def write (store : Store) (address : Address) (content : List Byte) : Store :=
  { store with
    bytes := fun found =>
      if found.region = address.region ∧ address.offset ≤ found.offset then
        (content[(found.offset - address.offset).toNat]?).getD (store.bytes found)
      else store.bytes found }

@[simp] theorem write_fresh (store : Store) (address : Address) (content : List Byte) :
    (store.write address content).fresh = store.fresh := rfl

@[simp] theorem length_read (store : Store) (address : Address) (count : Nat) :
    (store.read address count).length = count := by
  rw [read, List.length_map, List.length_range]

/-- What was written can be read back. -/
theorem read_write (store : Store) (address : Address) (content : List Byte) :
    (store.write address content).read address content.length = content := by
  refine List.ext_getElem (length_read _ _ _) fun index bound bound' => ?_
  simp only [read, List.getElem_map, List.getElem_range, write, Address.shift]
  rw [if_pos ⟨trivial, by omega⟩]
  have distance : (address.offset + (index : Int) - address.offset).toNat = index := by omega
  rw [distance, List.getElem?_eq_getElem bound', Option.getD_some]

/-- Writing in one region leaves the others alone. -/
theorem bytes_write_of_ne {store : Store} {address found : Address} {content : List Byte}
    (apart : found.region ≠ address.region) :
    (store.write address content).bytes found = store.bytes found := by
  rw [write]
  exact if_neg fun inside => apart inside.1

end Store

/-! ### Data in memory -/

/-- How many bits a number of this type has. -/
def Prim.width : Prim → Nat
  | bool => 1
  | u8 => 8
  | char | i32 | u32 => 32
  | isize | usize => 64
  | unit | never => 0

/-- The lowest bytes of a number. -/
def wordBytes : (count value : Nat) → List Byte
  | 0, _ => []
  | count + 1, value => .raw (UInt8.ofNat value) :: wordBytes count (value / 256)

/-- The number that bytes stand for. -/
def wordValue? : List Byte → Option Nat
  | [] => some 0
  | .raw byte :: rest => (wordValue? rest).map fun value => byte.toNat + 256 * value
  | _ :: _ => none

/-- The bytes of an address. -/
def addressBytes (address : Address) : List Byte :=
  (List.range 8).map (Byte.piece address)

/-- The bytes of a datum. -/
def Datum.encode : Datum → List Byte
  | word width bits => wordBytes ((width + 7) / 8) bits.toNat
  | address found => addressBytes found
  | block content => content

/-- The address that bytes stand for. -/
def addressValue? (content : List Byte) : Option Address :=
  match content with
  | .piece address _ :: _ => if content = addressBytes address then some address else none
  | _ => none

/-- The datum of a given type that bytes stand for. -/
def Datum.decode? (ty : Ty) (content : List Byte) : Option Datum :=
  match ty with
  | .prim prim => do
    let value ← wordValue? content
    if value < Nat.pow 2 prim.width then some (.word prim.width value) else none
  | .ptr .. | .func .. => (addressValue? content).map .address
  | .array .. | .struct _ | .slice _ => some (.block content)
  | .label | .unresolved _ => none

@[simp] theorem length_wordBytes (count value : Nat) : (wordBytes count value).length = count := by
  induction count generalizing value with
  | zero => rfl
  | succ count inductionHypothesis => rw [wordBytes, List.length_cons, inductionHypothesis]

theorem wordValue?_wordBytes (count value : Nat) :
    wordValue? (wordBytes count value) = some (value % Nat.pow 256 count) := by
  induction count generalizing value with
  | zero => rw [wordBytes, wordValue?, Nat.pow_eq, Nat.pow_zero, Nat.mod_one]
  | succ count inductionHypothesis =>
    rw [wordBytes, wordValue?, inductionHypothesis, Option.map_some, Nat.pow_eq, Nat.pow_eq,
      Nat.pow_succ', Nat.mod_mul]
    rfl

theorem Prim.width_le (prim : Prim) : prim.width ≤ 8 * ((prim.width + 7) / 8) := by omega

/-- A number of a primitive type takes as many bytes as the type has. -/
theorem Prim.size_eq (prim : Prim) : prim.size.toNat = (prim.width + 7) / 8 := by
  cases prim <;> rfl

/-- A number that was put into memory is found there. -/
theorem Datum.decode?_encode (prim : Prim) (bits : BitVec prim.width) :
    Datum.decode? (.prim prim) (Datum.word prim.width bits).encode =
      some (.word prim.width bits) := by
  have small : bits.toNat < Nat.pow 256 ((prim.width + 7) / 8) := by
    refine Nat.lt_of_lt_of_le bits.isLt ?_
    rw [Nat.pow_eq, show 256 = 2 ^ 8 from rfl, ← Nat.pow_mul]
    exact Nat.pow_le_pow_right (by decide) prim.width_le
  rw [Datum.decode?, Datum.encode, wordValue?_wordBytes, Nat.mod_eq_of_lt small]
  have fits : bits.toNat < Nat.pow 2 prim.width := bits.isLt
  simp only [Option.bind_eq_bind, Option.bind_some, if_pos fits]
  simp

end TreeLowering.Ir
