/-
This file reads the structure of a listing back from its text: how many types, globals and
declarations it has, and for every function its blocks with their instruction counts and whether
they are closed. Lines that fit no form are passed over, so any text has an outline.
-/

import TreeLowering.Text.Search

namespace TreeLowering.Ir

open Text

/-- The structure of one block. -/
structure BlockOutline where
  label : String
  instructions : Nat
  terminated : Bool
deriving DecidableEq, Repr, Inhabited

/-- The structure of one function with a body. -/
structure FunctionOutline where
  name : String
  blocks : List BlockOutline
deriving DecidableEq, Repr, Inhabited

/-- How many instructions the function has, terminators not counted. -/
def FunctionOutline.instructionCount (function : FunctionOutline) : Nat :=
  function.blocks.foldr (fun block count => block.instructions + count) 0

/-- The structure of a listing. -/
structure Outline where
  types : Nat
  globals : Nat
  declarations : Nat
  functions : List FunctionOutline
deriving DecidableEq, Repr, Inhabited

namespace Outline

/-- The outline of the empty text. -/
def empty : Outline := ⟨0, 0, 0, []⟩

/-! ### Names -/

/-- The function name in the rest of a `define` line: what stands between the first at sign and
the next opening parenthesis. -/
def functionName (head : List Char) : String :=
  match splitAt? '@' head with
  | none => ""
  | some (_, afterMark) =>
    match splitAt? '(' afterMark with
    | none => ""
    | some (name, _) => String.ofList name

/-! ### Reading a listing -/

/-- The reader between two lines: what it has found, and the function it is inside of. Functions
and blocks are kept with the newest first. -/
structure Reader where
  done : Outline
  current : Option FunctionOutline
deriving DecidableEq, Repr, Inhabited

/-- Whether an indented line closes its block. -/
def isTerminatorLine (body : List Char) : Bool :=
  startsWith "ret " body || startsWith "br " body || startsWith "jmp " body

/-- Whether an indented line is an instruction. -/
def isInstructionLine (body : List Char) : Bool :=
  startsWith "%" body && contains " = " body

/-- What an indented line says about its block. -/
def BlockOutline.read (block : BlockOutline) (body : List Char) : BlockOutline :=
  if isTerminatorLine body then { block with terminated := true }
  else if isInstructionLine body then { block with instructions := block.instructions + 1 }
  else block

/-- The label of a line that ends in a colon. -/
def labelOf? (line : List Char) : Option String :=
  match line.reverse with
  | ':' :: label => some (String.ofList label.reverse)
  | _ => none

/-- One line inside a function. -/
def readInside (function : FunctionOutline) (line : List Char) : FunctionOutline :=
  match dropStart? "  ".toList line with
  | some body =>
    match function.blocks with
    | [] => function
    | block :: earlier => { function with blocks := BlockOutline.read block body :: earlier }
  | none =>
    match labelOf? line with
    | some label => { function with blocks := ⟨label, 0, false⟩ :: function.blocks }
    | none => function

/-- One line outside all functions. -/
def Reader.readOutside (reader : Reader) (line : List Char) : Reader :=
  match dropStart? "define ".toList line with
  | some head => { reader with current := some ⟨functionName head, []⟩ }
  | none =>
    let done := reader.done
    if startsWith "declare " line then
      { reader with done := { done with declarations := done.declarations + 1 } }
    else if startsWith "@" line && contains " = constant " line then
      { reader with done := { done with globals := done.globals + 1 } }
    else if startsWith "%" line && contains " = type " line then
      { reader with done := { done with types := done.types + 1 } }
    else reader

/-- One line. -/
def Reader.read (reader : Reader) (line : List Char) : Reader :=
  match reader.current with
  | none => reader.readOutside line
  | some function =>
    if line = ['\x7d'] then
      let closed := { function with blocks := function.blocks.reverse }
      ⟨{ reader.done with functions := closed :: reader.done.functions }, none⟩
    else { reader with current := some (readInside function line) }

/-! ### Lines -/

/-- A line from its characters, last one first: one carriage return at its end is dropped. -/
def finishLine : (pending : List Char) → List Char
  | '\r' :: kept => kept.reverse
  | kept => kept.reverse

/-- Reads line after line. `pending` holds the characters of the current line, last one first; a
last line without a line feed is read as it stands. -/
def Reader.readText : Reader → (pending : List Char) → List Char → Reader
  | reader, [], [] => reader
  | reader, c :: pending, [] => reader.read (c :: pending).reverse
  | reader, pending, '\n' :: rest => (reader.read (finishLine pending)).readText [] rest
  | reader, pending, c :: rest => reader.readText (c :: pending) rest

/-- The outline of a text. A function whose closing brace is missing is not part of it. -/
def parse (text : String) : Outline :=
  let done := (Reader.readText ⟨empty, none⟩ [] text.toList).done
  { done with functions := done.functions.reverse }

end Outline

end TreeLowering.Ir
