/-
This file stages texts. A text is written to a file with a name of its own first, in the directory
it goes to, and that file is then moved to its place in one step. So the file at that place is
either as it was or complete, and when anything fails, the staged file is thrown away.
-/

import TreeLowering.CommandLine.FileSystem

namespace TreeLowering.CommandLine

/-- A file that waits to be moved to its place. -/
structure Staged where
  /-- Its own path, from the root. -/
  path : Path
  location : Location

/-- How files are staged. Each step but the last can fail. -/
structure Staging where
  /-- Makes an empty file with a new name in a directory. -/
  create (files : FileSystem) (directory : Path) : Option (Staged × FileSystem)
  /-- Writes a text to a staged file. A failure may leave a part of it there. -/
  write (files : FileSystem) (staged : Staged) (text : String) : Except FileSystem FileSystem
  /-- Moves a staged file to a path. -/
  persist (files : FileSystem) (staged : Staged) (output : Path) : Option FileSystem
  /-- Throws a staged file away. -/
  discard (files : FileSystem) (staged : Staged) : FileSystem

namespace Staging

/-- Brings a text to a path through a staged file, or tells the path at which that failed. -/
def place (staging : Staging) (files : FileSystem) (output : Path) (text : String) :
    Except Path Unit × FileSystem :=
  match staging.create files output.parent with
  | none => (.error output.parent, files)
  | some (staged, created) =>
    match staging.write created staged text with
    | .error begun => (.error staged.path, staging.discard begun staged)
    | .ok written =>
      match staging.persist written staged output with
      | none => (.error output, staging.discard written staged)
      | some persisted => (.ok (), persisted)

end Staging

/-! ### Staging in the file system -/

namespace FileSystem

/-- The number of bytes in the name of a staged file. -/
def stagedNameSize : Nat := 10

/-- The names that are tried for staged files, by number. -/
def stagedName (number : Nat) : String :=
  let digits := toString number
  ".tmp" ++ "".pushn '0' (6 - digits.length) ++ digits

/-- Whether a file can be staged in a directory: the directory exists, and the absolute path of the
staged file, which is a slash and a name longer than that of the directory, is not too long. -/
def canStage (files : FileSystem) (directory : Path) : Bool :=
  files.directoryExists directory &&
    (files.absolute directory).text.utf8ByteSize + 1 + stagedNameSize ≤ longestPath

/-- The first name for staged files that nothing in a directory has. There are more names to choose
from than entries. -/
def freshName? (files : FileSystem) (directory : Location) : Option String :=
  ((List.range (files.entries.length + 1)).map stagedName).find? fun name =>
    (files.stored? (directory ++ [name])).isNone

/-- Makes an empty file with a new name in a directory. -/
def createStaged (files : FileSystem) (directory : Path) : Option (Staged × FileSystem) := do
  guard (files.canStage directory)
  let location ← files.locate? directory
  let name ← files.freshName? location
  let staged : Staged :=
    ⟨⟨(files.absolute directory).text ++ "/" ++ name⟩, location ++ [name]⟩
  return (staged, files.put staged.location (.file .empty))

/-- Moves a staged file to a path, if a file can be written there. -/
def persistStaged (files : FileSystem) (staged : Staged) (output : Path) : Option FileSystem := do
  let location ← files.writable? output
  let entry ← files.stored? staged.location
  return (files.remove staged.location).put location entry

end FileSystem

/-- Staging as the file system has it. A text always fits. -/
def Staging.standard : Staging where
  create := FileSystem.createStaged
  write files staged text := .ok (files.put staged.location (.file text.toUTF8))
  persist := FileSystem.persistStaged
  discard files staged := files.remove staged.location

end TreeLowering.CommandLine
