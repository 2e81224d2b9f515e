/-
This file proves what putting and removing files does to a file system. A path leads where it led
before as long as the directories stay the same, so making, moving and removing files never changes
what another path leads to.
-/

import TreeLowering.CommandLine.FileSystem
import TreeLowering.Proofs.CommandLine.Path

namespace TreeLowering.CommandLine

namespace FileSystem

variable {files after : FileSystem} {location : Location} {entry : Entry} {path : Path}

/-! ### Entries -/

theorem lookup_filter_ne (entries : List (Location × Entry)) (location other : Location) :
    (entries.filter fun entry => entry.1 != location).lookup other =
      if other = location then none else entries.lookup other := by
  induction entries with
  | nil => simp
  | cons entry entries inductionHypothesis =>
    obtain ⟨place, entry⟩ := entry
    by_cases here : other = place
    · subst here
      by_cases same : other = location
      · simpa [same] using inductionHypothesis
      · simp [same]
    · have apart : (other == place) = false := beq_false_of_ne here
      by_cases same : place = location
      · subst same
        simpa [List.lookup_cons, apart] using inductionHypothesis
      · simpa [List.lookup_cons, apart, same] using inductionHypothesis

theorem stored?_put (rooted : location ≠ []) (other : Location) :
    (files.put location entry).stored? other =
      if other = location then some entry else files.stored? other := by
  by_cases root : other = []
  · subst root
    simp [stored?, Ne.symm rooted]
  · by_cases here : other = location
    · simp [stored?, put, rooted, here]
    · have apart : (other == location) = false := beq_false_of_ne here
      simp [stored?, put, root, here, List.lookup_cons, apart, lookup_filter_ne]

theorem stored?_remove (rooted : location ≠ []) (other : Location) :
    (files.remove location).stored? other =
      if other = location then none else files.stored? other := by
  by_cases root : other = []
  · subst root
    simp [stored?, Ne.symm rooted]
  · simp [stored?, remove, root, lookup_filter_ne]

/-- Everything but what is at one location is the same. -/
structure SameBut (location : Location) (files after : FileSystem) : Prop where
  workingDirectory : after.workingDirectory = files.workingDirectory
  elsewhere : ∀ other, other ≠ location → after.stored? other = files.stored? other

/-! ### Directories -/

/-- The directories of two file systems are the same, and both are in the same one. -/
structure SameDirectories (files after : FileSystem) : Prop where
  workingDirectory : after.workingDirectory = files.workingDirectory
  isDirectory : ∀ location, after.isDirectory location = files.isDirectory location

/-- What is no directory before and after makes no difference to the directories. -/
theorem SameBut.directories (same : files.SameBut location after)
    (before : files.isDirectory location = false) (now : after.isDirectory location = false) :
    files.SameDirectories after := by
  refine ⟨same.workingDirectory, fun other => ?_⟩
  by_cases here : other = location
  · rw [here, before, now]
  · rw [isDirectory, isDirectory, same.elsewhere other here]

namespace SameDirectories

variable (same : files.SameDirectories after)

include same

theorem step (location : Location) (segment : List Char) :
    after.step location segment = files.step location segment := by
  rw [FileSystem.step, FileSystem.step, same.isDirectory]

theorem follow (location : Location) (segments : List (List Char)) :
    after.follow location segments = files.follow location segments := by
  induction segments generalizing location with
  | nil => rfl
  | cons segment rest inductionHypothesis =>
    rw [FileSystem.follow, FileSystem.follow, same.step]
    cases files.step location segment with
    | none => rfl
    | some next => exact inductionHypothesis next

/-- A path leads where it led before. -/
theorem locate? (path : Path) : after.locate? path = files.locate? path := by
  rw [FileSystem.locate?, FileSystem.locate?, origin, origin, same.workingDirectory, same.follow]

theorem writable? (path : Path) : after.writable? path = files.writable? path := by
  simp only [FileSystem.writable?, same.locate?, same.isDirectory]

end SameDirectories

/-! ### Names at the end of a path -/

theorem follow_append (location : Location) (front : List (List Char)) (name : List Char) :
    files.follow location (front ++ [name]) =
      (files.follow location front).bind fun directory => files.step directory name := by
  induction front generalizing location with
  | nil =>
    rw [List.nil_append, follow, follow, Option.bind_some]
    cases files.step location name <;> rfl
  | cons segment rest inductionHypothesis =>
    rw [List.cons_append, follow, follow]
    cases files.step location segment with
    | none => rfl
    | some next => exact inductionHypothesis next

/-- What a path leads to lies in the directory that the pieces before the last one lead to. -/
theorem exists_step {front : List (List Char)} {name : List Char}
    (whole : path.segments = front ++ [name]) (found : files.locate? path = some location) :
    ∃ directory, files.follow (files.origin path) front = some directory ∧
      files.step directory name = some location := by
  rw [locate?, Option.bind_eq_bind, Option.bind_eq_some_iff] at found
  obtain ⟨_, _, followed⟩ := found
  rw [whole, follow_append] at followed
  exact Option.bind_eq_some_iff.1 followed

theorem eq_append_of_step {directory : Location} {name : List Char}
    (named : Path.isName name = true) (found : files.step directory name = some location) :
    location = directory ++ [String.ofList name] := by
  have busy := Path.isIdle_of_isName named
  have below : name ≠ ['.', '.'] := by
    rintro rfl
    cases named
  cases inside : files.isDirectory directory with
  | false => simp [step, inside] at found
  | true => simpa [step, inside, busy, below, eq_comm] using found

end FileSystem

end TreeLowering.CommandLine
