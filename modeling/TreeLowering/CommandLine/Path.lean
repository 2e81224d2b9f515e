/-
This file reads paths as texts. A path is cut at its slashes. Empty pieces and single dots mean
nothing, except for a dot at the very beginning; two dots mean the directory above. The last piece
that means something is the file name, unless it is a dot or two; its extension is what follows its
last dot, unless that dot is its first character.
-/

import TreeLowering.Text.Search

namespace TreeLowering.CommandLine

open Text

/-- A path, kept as it was written. -/
structure Path where
  text : String
deriving DecidableEq, Repr, Inhabited

namespace Path

/-- The pieces between slashes, as they were written. -/
def segments (path : Path) : List (List Char) := pieces '/' path.text.toList

/-- Whether a path starts at the root: it begins with a slash. -/
def isAbsolute (path : Path) : Bool :=
  match path.segments with
  | [] :: _ :: _ => true
  | _ => false

/-- Whether a piece means nothing behind another one. -/
def isIdle (segment : List Char) : Bool := segment == [] || segment == ['.']

/-- The pieces without the idle ones at the end; the first piece always stays. -/
def trimIdle : List (List Char) → List (List Char)
  | [] => []
  | first :: rest => first :: (rest.reverse.dropWhile isIdle).reverse

/-- Whether a piece can be the name of a file: it is neither empty nor one or two dots. -/
def isName (segment : List Char) : Bool :=
  !(isIdle segment || segment == ['.', '.'])

/-- What stands before the file name, and the file name, if the path has one. -/
def splitName? (path : Path) : Option (List (List Char) × List Char) := do
  let segments := trimIdle path.segments
  let name ← segments.getLast?
  guard (isName name)
  return (segments.dropLast, name)

/-- Cuts a file name before its last dot, unless that is its first character. The dot belongs to
neither part. -/
def splitExtension (name : List Char) : List Char × Option (List Char) :=
  match splitAt? '.' name.reverse with
  | none => (name, none)
  | some (_, []) => (name, none)
  | some (extension, stem) => (stem.reverse, some extension.reverse)

/-- The file name without its extension. -/
def stem? (path : Path) : Option String := do
  let (_, name) ← path.splitName?
  return String.ofList (splitExtension name).1

/-- A path from its pieces. -/
def ofSegments (segments : List (List Char)) : Path := ⟨String.ofList (joinPieces '/' segments)⟩

/-- The path with an extension put behind the stem of its file name; a path without a file name
stays as it is. What follows the file name is dropped. -/
def addExtension (path : Path) (extension : String) : Path :=
  match path.splitName? with
  | none => path
  | some (before, name) =>
    ofSegments (before ++ [(splitExtension name).1 ++ '.' :: extension.toList])

/-- The path without the extension of its file name; the dot stays. Nothing is dropped when
anything follows the file name. -/
def dropExtension (path : Path) : Path :=
  match path.segments.getLast? with
  | none => path
  | some last =>
    match splitExtension last with
    | (_, none) => path
    | (stem, some _) =>
      if isName last then ofSegments (path.segments.dropLast ++ [stem ++ ['.']]) else path

/-- The path with another extension. The old one goes first, and when what is left has no file
name any more, it stays as it is. -/
def withExtension (path : Path) (extension : String) : Path :=
  path.dropExtension.addExtension extension

/-- The directory a path lies in, as it was written; the current one is a single dot. -/
def parent (path : Path) : Path :=
  match trimIdle (trimIdle path.segments).dropLast with
  | [] => ⟨"."⟩
  | [[]] => ⟨"/"⟩
  | segments => ofSegments segments

end Path

end TreeLowering.CommandLine
