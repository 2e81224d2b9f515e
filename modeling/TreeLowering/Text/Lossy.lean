/-
This file shows bytes as text. Valid characters are shown as they are. A byte that cannot begin a
character, and a character that is cut short, are each shown as one replacement character.
-/

namespace TreeLowering.Text

/-- The replacement character. -/
def replacement : Char := '\ufffd'

/-- The form of a character that takes several bytes. -/
structure CharForm where
  /-- What the first byte contributes to the code point. -/
  start : Nat
  /-- How many bytes follow the first one. -/
  tails : Nat
  /-- The least and the greatest second byte. -/
  low : UInt8
  high : UInt8

/-- The form of the character that a byte begins. The bounds on the second byte rule out code
points that have a shorter form, surrogates, and numbers that are no code points. -/
def charForm? (byte : UInt8) : Option CharForm :=
  let bits := byte.toNat
  if 0xc2 ≤ byte && byte ≤ 0xdf then some ⟨bits % 32, 1, 0x80, 0xbf⟩
  else if byte == 0xe0 then some ⟨bits % 16, 2, 0xa0, 0xbf⟩
  else if byte == 0xed then some ⟨bits % 16, 2, 0x80, 0x9f⟩
  else if 0xe1 ≤ byte && byte ≤ 0xef then some ⟨bits % 16, 2, 0x80, 0xbf⟩
  else if byte == 0xf0 then some ⟨bits % 8, 3, 0x90, 0xbf⟩
  else if 0xf1 ≤ byte && byte ≤ 0xf3 then some ⟨bits % 8, 3, 0x80, 0xbf⟩
  else if byte == 0xf4 then some ⟨bits % 8, 3, 0x80, 0x8f⟩
  else none

/-- A character that has begun: what is known of its code point, how many bytes are missing, and
the bounds on the next one. -/
structure PartialChar where
  code : Nat
  missing : Nat
  low : UInt8
  high : UInt8

/-- The state before the first byte of a character: plain bytes are characters, and others begin
one or are replaced. -/
def beginChar (byte : UInt8) (shown : List Char) : Option PartialChar × List Char :=
  if byte < 0x80 then (none, Char.ofNat byte.toNat :: shown)
  else
    match charForm? byte with
    | some form => (some ⟨form.start, form.tails, form.low, form.high⟩, shown)
    | none => (none, replacement :: shown)

/-- One more byte. A byte that does not continue the character that has begun replaces what there
is of it, and is then read on its own. -/
def showByte : Option PartialChar × List Char → UInt8 → Option PartialChar × List Char
  | (none, shown), byte => beginChar byte shown
  | (some begun, shown), byte =>
    if begun.low ≤ byte && byte ≤ begun.high then
      let code := begun.code * 64 + byte.toNat % 64
      if begun.missing = 1 then (none, Char.ofNat code :: shown)
      else (some ⟨code, begun.missing - 1, 0x80, 0xbf⟩, shown)
    else beginChar byte (replacement :: shown)

/-- Bytes as text. -/
def showBytes (bytes : List UInt8) : String :=
  match bytes.foldl showByte (none, []) with
  | (none, shown) => String.ofList shown.reverse
  | (some _, shown) => String.ofList (replacement :: shown).reverse

end TreeLowering.Text
