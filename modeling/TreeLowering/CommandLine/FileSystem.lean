/-
This file models the files a compilation can see: a finite map from absolute paths to files and
directories, and a working directory. A path is followed piece by piece, and every piece but the
last must lead to a directory.
-/

import TreeLowering.CommandLine.Path

namespace TreeLowering.CommandLine

/-- A place in the file system: the names from the root down to it. -/
abbrev Location := List String

/-- What is stored at a location. -/
inductive Entry where
  | directory
  | file (content : ByteArray)

/-- What is written behind the path of an entry: a slash marks a directory. -/
def Entry.mark : Entry → String
  | directory => "/"
  | file _ => ""

/-- Files and directories by location. The root is always a directory. -/
structure FileSystem where
  entries : List (Location × Entry)
  workingDirectory : Location

namespace FileSystem

/-- What is stored at a location; the newest entry counts. -/
def stored? (files : FileSystem) (location : Location) : Option Entry :=
  if location = [] then some .directory
  else files.entries.lookup location

def isDirectory (files : FileSystem) (location : Location) : Bool :=
  match files.stored? location with
  | some .directory => true
  | _ => false

/-- Puts an entry at a location. -/
def put (files : FileSystem) (location : Location) (entry : Entry) : FileSystem :=
  { files with
    entries := (location, entry) :: files.entries.filter fun other => other.1 != location }

/-- Takes the entry away that is at a location. -/
def remove (files : FileSystem) (location : Location) : FileSystem :=
  { files with entries := files.entries.filter fun other => other.1 != location }

/-! ### Making directories and files -/

/-- Makes the directories at and above a location that are missing, the topmost first. -/
def makeDirectory (files : FileSystem) (location : Location) : FileSystem :=
  (List.range (location.length + 1)).foldl (fun files depth =>
    if files.isDirectory (location.take depth) then files
    else files.put (location.take depth) .directory) files

/-- The file system in which nothing exists but the working directory. -/
def initial (workingDirectory : Location) : FileSystem :=
  makeDirectory ⟨[], workingDirectory⟩ workingDirectory

/-- The location that the names of a path lead to from the working directory. -/
def below (files : FileSystem) (path : Path) : Location :=
  files.workingDirectory ++
    (path.segments.filter fun segment => !Path.isIdle segment).map String.ofList

/-- Makes a directory inside the working directory. -/
def withDirectory (files : FileSystem) (path : Path) : FileSystem :=
  files.makeDirectory (files.below path)

/-- Makes a file inside the working directory. -/
def withFile (files : FileSystem) (path : Path) (content : ByteArray) : FileSystem :=
  (files.makeDirectory (files.below path).dropLast).put (files.below path) (.file content)

/-- The path of an entry below the working directory, with its mark. -/
def relativePath? (files : FileSystem) (location : Location) (entry : Entry) : Option String :=
  if files.workingDirectory.isPrefixOf location &&
      files.workingDirectory.length < location.length then
    some ("/".intercalate (location.drop files.workingDirectory.length) ++ entry.mark)
  else none

/-- Everything below the working directory, in the order of the marked paths. -/
def contents (files : FileSystem) : List (String × Entry) :=
  (files.entries.filterMap fun (location, entry) =>
    (files.relativePath? location entry).map fun path => (path, entry)).mergeSort
      fun left right => !(right.1 < left.1 : Bool)

/-! ### Following paths -/

/-- Follows one piece of a path from a directory. -/
def step (files : FileSystem) (location : Location) (segment : List Char) : Option Location :=
  if files.isDirectory location then
    if Path.isIdle segment then some location
    else if segment = ['.', '.'] then some location.dropLast
    else some (location ++ [String.ofList segment])
  else none

/-- Follows the pieces of a path. -/
def follow (files : FileSystem) : Location → List (List Char) → Option Location
  | location, [] => some location
  | location, segment :: rest => do
    let next ← files.step location segment
    files.follow next rest

/-- Where a path starts: at the root when it is absolute, and else in the working directory. -/
def origin (files : FileSystem) (path : Path) : Location :=
  if path.isAbsolute then [] else files.workingDirectory

/-- The path from the root: the working directory is put before a path that starts there. The rest
stays as it was written. -/
def absolute (files : FileSystem) (path : Path) : Path :=
  if path.isAbsolute then path
  else ⟨"/" ++ "/".intercalate (files.workingDirectory ++ [path.text])⟩

/-- The most bytes that a path can have. -/
def longestPath : Nat := 4095

/-- The location a path leads to; whether anything is there is another question. A path that is
empty or too long leads nowhere. -/
def locate? (files : FileSystem) (path : Path) : Option Location := do
  guard (path.text != "" && path.text.utf8ByteSize ≤ longestPath)
  files.follow (files.origin path) path.segments

/-! ### Files at paths -/

/-- The text of a file, if there is one at the path and it is valid. -/
def readText? (files : FileSystem) (path : Path) : Option String := do
  let location ← files.locate? path
  match files.stored? location with
  | some (.file content) => String.fromUTF8? content
  | _ => none

/-- Whether a path leads to a directory. -/
def directoryExists (files : FileSystem) (path : Path) : Bool :=
  match files.locate? path with
  | some location => files.isDirectory location
  | none => false

/-- The most bytes that the name of a file can have. -/
def longestName : Nat := 255

/-- Whether a piece of a path can name a new file: it is a name, it is not too long, and it holds
no null character. -/
def canName (segment : List Char) : Bool :=
  Path.isName segment && !segment.contains '\x00' &&
    (String.ofList segment).utf8ByteSize ≤ longestName

/-- Where a file written to a path would be: the last piece must be able to name a file, the pieces
before it must lead to a directory, and no directory may be there already. -/
def writable? (files : FileSystem) (path : Path) : Option Location := do
  let name ← path.segments.getLast?
  guard (canName name)
  let location ← files.locate? path
  guard !(files.isDirectory location)
  return location

end FileSystem

end TreeLowering.CommandLine
