/-
This file defines constants and their text. Every constant is written on one line of printable
ASCII: characters are quoted with the usual backslash escapes, and a byte that is no plain
character is written as a backslash and two hexadecimal digits.
-/

namespace TreeLowering.Ir

/-- A value known when the module is written. -/
inductive Constant where
  | int (value : Int)
  | bool (value : Bool)
  | char (value : Char)
  /-- The content of a string global. -/
  | bytes (content : List UInt8)
  /-- A slice over the first `len` bytes of a global. -/
  | slice (global : String) (len : UInt64)
  | array (items : List Constant)
  | struct (items : List Constant)
  | unit
deriving Repr, Inhabited

namespace Constant

/-! ### Equality -/

mutual

/-- Whether two constants are the same, part by part. -/
def same : Constant → Constant → Bool
  | int left, int right => left == right
  | bool left, bool right => left == right
  | char left, char right => left == right
  | bytes left, bytes right => left == right
  | slice left len, slice right len' => left == right && len == len'
  | array left, array right => sameAll left right
  | struct left, struct right => sameAll left right
  | unit, unit => true
  | _, _ => false

/-- Whether two lists hold the same constants in the same order. -/
def sameAll : List Constant → List Constant → Bool
  | [], [] => true
  | left :: lefts, right :: rights => same left right && sameAll lefts rights
  | _, _ => false

end

mutual

theorem same_iff : ∀ left right : Constant, same left right = true ↔ left = right
  | int _, right => by cases right <;> simp [same]
  | bool _, right => by cases right <;> simp [same]
  | char _, right => by cases right <;> simp [same]
  | bytes _, right => by cases right <;> simp [same]
  | slice _ _, right => by cases right <;> simp [same]
  | array items, right => by cases right <;> simp [same, sameAll_iff items]
  | struct items, right => by cases right <;> simp [same, sameAll_iff items]
  | unit, right => by cases right <;> simp [same]

theorem sameAll_iff :
    ∀ lefts rights : List Constant, sameAll lefts rights = true ↔ lefts = rights
  | [], rights => by cases rights <;> simp [sameAll]
  | left :: lefts, rights => by
    cases rights <;> simp [sameAll, same_iff left, sameAll_iff lefts]

end

instance : DecidableEq Constant := fun left right =>
  decidable_of_iff (same left right = true) (same_iff left right)

/-! ### Text -/

/-- The digits of a number in base sixteen, in lower case. -/
def hexDigits (number : Nat) : String := String.ofList (Nat.toDigits 16 number)

/-- A character as it stands between single quotes: tab, carriage return, line feed, both quotes
and the backslash by their backslash forms, other printable ASCII as it is, and everything else by
its code point. -/
def quotedChar (c : Char) : String :=
  if c = '\t' then "\\t"
  else if c = '\r' then "\\r"
  else if c = '\n' then "\\n"
  else if c = '\'' then "\\'"
  else if c = '"' then "\\\""
  else if c = '\\' then "\\\\"
  else if 0x20 ≤ c.toNat ∧ c.toNat ≤ 0x7e then c.toString
  else "\\u\x7b" ++ hexDigits c.toNat ++ "\x7d"

/-- Whether a byte stands for itself inside a byte string. -/
def isPlainByte (byte : UInt8) : Bool :=
  0x20 ≤ byte && byte ≤ 0x7e && byte != 0x22 && byte != 0x5c

/-- The upper-case hexadecimal digit of a number below sixteen. -/
def hexDigit (number : Nat) : Char :=
  if number < 10 then Char.ofNat (0x30 + number) else Char.ofNat (0x37 + number)

/-- A byte inside a byte string: itself, or a backslash and two hexadecimal digits. -/
def quotedByte (byte : UInt8) : List Char :=
  if isPlainByte byte then [Char.ofNat byte.toNat]
  else ['\\', hexDigit (byte.toNat / 16), hexDigit (byte.toNat % 16)]

mutual

/-- The text of a constant. -/
def text : Constant → String
  | int value => toString value
  | bool value => if value then "true" else "false"
  | char value => "'" ++ quotedChar value ++ "'"
  | bytes content => "c\"" ++ String.ofList (content.flatMap quotedByte) ++ "\""
  | slice global len => "\x7b @" ++ global ++ ", " ++ toString len ++ " \x7d"
  | array items => "[" ++ textAll items ++ "]"
  | struct items => "\x7b " ++ textAll items ++ " \x7d"
  | unit => "()"

/-- The texts of several constants, separated by commas. -/
def textAll : List Constant → String
  | [] => ""
  | [item] => text item
  | item :: rest => text item ++ ", " ++ textAll rest

end

end Constant

end TreeLowering.Ir
