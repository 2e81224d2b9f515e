/-
This file says what is relied on when texts are staged, and proves that a text then either gets to
its place, with everything else as it was, or that nothing has changed at all. A staged file is at
no time in the way of anything: it is made where nothing was, and it is gone in the end.
-/

import TreeLowering.CommandLine.Staging
import TreeLowering.Proofs.CommandLine.FileSystem

namespace TreeLowering.CommandLine

namespace FileSystem

variable {files after later : FileSystem} {location place : Location} {path : Path}

/-- There is a file at a location. -/
def HasFile (files : FileSystem) (location : Location) : Prop :=
  ∃ content, files.stored? location = some (.file content)

theorem isDirectory_of_hasFile (file : files.HasFile location) :
    files.isDirectory location = false := by
  obtain ⟨content, found⟩ := file
  rw [isDirectory, found]

theorem isDirectory_of_stored?_eq_none (none : files.stored? location = none) :
    files.isDirectory location = false := by
  rw [isDirectory, none]

theorem ne_nil_of_isDirectory (file : files.isDirectory location = false) : location ≠ [] := by
  rintro rfl
  cases file

/-- A path can be written to when it ends in a new name, and leads to no directory. -/
theorem writable?_eq_some_iff : files.writable? path = some place ↔
    (∃ name, path.segments.getLast? = some name ∧ canName name = true) ∧
      files.locate? path = some place ∧ files.isDirectory place = false := by
  constructor
  · intro writable
    simp only [writable?, Option.bind_eq_bind, Option.bind_eq_some_iff, Option.guard_eq_some']
      at writable
    obtain ⟨name, ending, _, named, location, found, _, free, same⟩ := writable
    cases same
    exact ⟨⟨name, ending, named⟩, found, by simpa using free⟩
  · rintro ⟨⟨name, ending, named⟩, found, free⟩
    simp [writable?, ending, named, found, free]

/-- Nothing is changed. -/
structure Unchanged (files after : FileSystem) : Prop where
  workingDirectory : after.workingDirectory = files.workingDirectory
  everywhere : ∀ location, after.stored? location = files.stored? location

theorem Unchanged.refl (files : FileSystem) : files.Unchanged files := ⟨rfl, fun _ => rfl⟩

theorem SameBut.trans (same : SameBut location files after) (same' : SameBut location after later) :
    SameBut location files later :=
  ⟨same'.workingDirectory.trans same.workingDirectory,
    fun other apart => (same'.elsewhere other apart).trans (same.elsewhere other apart)⟩

/-- What was changed at one location only, and is there as it was, is unchanged. -/
theorem SameBut.unchanged (same : SameBut location files after)
    (here : after.stored? location = files.stored? location) : files.Unchanged after := by
  refine ⟨same.workingDirectory, fun other => ?_⟩
  by_cases same' : other = location
  · rw [same', here]
  · exact same.elsewhere other same'

end FileSystem

namespace Staging

open FileSystem

/-- What is relied on when texts are staged. -/
structure Lawful (staging : Staging) : Prop where
  /-- A staged file is made where nothing was. -/
  created : ∀ files directory staged after,
    staging.create files directory = some (staged, after) →
      files.stored? staged.location = none ∧ after.HasFile staged.location ∧
        SameBut staged.location files after
  /-- A text is written to the staged file only. -/
  written : ∀ files staged text after, files.HasFile staged.location →
    staging.write files staged text = .ok after →
      after.stored? staged.location = some (.file text.toUTF8) ∧ SameBut staged.location files after
  /-- So is a part of a text. -/
  begun : ∀ files staged text after, files.HasFile staged.location →
    staging.write files staged text = .error after →
      after.HasFile staged.location ∧ SameBut staged.location files after
  /-- A staged file is moved, as it is, to a path that can be written to. -/
  persisted : ∀ files staged output after content,
    files.stored? staged.location = some (.file content) →
      staging.persist files staged output = some after →
        ∃ place, files.writable? output = some place ∧
          after.stored? place = some (.file content) ∧
          (staged.location ≠ place → after.stored? staged.location = none) ∧
          after.workingDirectory = files.workingDirectory ∧
          ∀ other, other ≠ place → other ≠ staged.location →
            after.stored? other = files.stored? other
  /-- A staged file that is thrown away is gone. -/
  discarded : ∀ files staged, files.HasFile staged.location →
    (staging.discard files staged).stored? staged.location = none ∧
      SameBut staged.location files (staging.discard files staged)

/-- The file system stages texts as is relied on. -/
theorem lawful_standard : Staging.standard.Lawful where
  created files directory staged after made := by
    simp only [standard, createStaged, Option.bind_eq_bind, Option.bind_eq_some_iff] at made
    obtain ⟨_, _, location, _, name, fresh, made⟩ := made
    cases made
    have rooted : location ++ [name] ≠ [] := by simp
    refine ⟨?_, ⟨.empty, ?_⟩, rfl, fun other apart => ?_⟩
    · simpa using List.find?_some fresh
    · rw [stored?_put rooted, if_pos rfl]
    · rw [stored?_put rooted, if_neg apart]
  written files staged text after file done := by
    cases done
    have rooted := ne_nil_of_isDirectory (isDirectory_of_hasFile file)
    refine ⟨?_, rfl, fun other apart => ?_⟩
    · rw [stored?_put rooted, if_pos rfl]
    · rw [stored?_put rooted, if_neg apart]
  begun files staged text after _ done := by
    cases done
  persisted files staged output after content found moved := by
    simp only [standard, persistStaged, found, Option.bind_eq_bind, Option.bind_eq_some_iff]
      at moved
    obtain ⟨place, writable, _, ⟨⟩, moved⟩ := moved
    cases moved
    have rooted := ne_nil_of_isDirectory (isDirectory_of_hasFile ⟨content, found⟩)
    have rooted' := ne_nil_of_isDirectory (writable?_eq_some_iff.1 writable).2.2
    refine ⟨place, writable, ?_, fun apart => ?_, rfl, fun other apart apart' => ?_⟩
    · rw [stored?_put rooted', if_pos rfl]
    · rw [stored?_put rooted', if_neg apart, stored?_remove rooted, if_pos rfl]
    · rw [stored?_put rooted', if_neg apart, stored?_remove rooted, if_neg apart']
  discarded files staged file := by
    have rooted := ne_nil_of_isDirectory (isDirectory_of_hasFile file)
    refine ⟨?_, rfl, fun other apart => ?_⟩
    · exact (stored?_remove rooted _).trans (if_pos rfl)
    · exact (stored?_remove rooted _).trans (if_neg apart)

namespace Lawful

variable {staging : Staging} (lawful : staging.Lawful) {files after : FileSystem} {output : Path}
  {text : String}

include lawful

/-- A text that does not get to its place leaves nothing behind. -/
theorem place_error {path : Path}
    (failed : staging.place files output text = (.error path, after)) : files.Unchanged after := by
  unfold place at failed
  cases made : staging.create files output.parent with
  | none =>
    simp only [made, Prod.mk.injEq] at failed
    exact failed.2 ▸ .refl files
  | some pair =>
    obtain ⟨staged, created⟩ := pair
    obtain ⟨absent, file, same⟩ := lawful.created _ _ _ _ made
    -- Whatever is thrown away holds the staged file, and differs nowhere else.
    have thrown : ∀ begun, begun.HasFile staged.location →
        SameBut staged.location created begun →
        files.Unchanged (staging.discard begun staged) := by
      intro begun file' same'
      obtain ⟨gone, same''⟩ := lawful.discarded _ _ file'
      exact ((same.trans same').trans same'').unchanged (gone.trans absent.symm)
    cases filled : staging.write created staged text with
    | error begun =>
      simp only [made, filled, Prod.mk.injEq] at failed
      obtain ⟨file', same'⟩ := lawful.begun _ _ _ _ file filled
      exact failed.2 ▸ thrown begun file' same'
    | ok written =>
      obtain ⟨found, same'⟩ := lawful.written _ _ _ _ file filled
      cases moved : staging.persist written staged output with
      | none =>
        simp only [made, filled, moved, Prod.mk.injEq] at failed
        exact failed.2 ▸ thrown written ⟨_, found⟩ same'
      | some persisted => simp [made, filled, moved] at failed

/-- A text that gets to its place is there, and everything else is as it was. -/
theorem place_ok (done : staging.place files output text = (.ok (), after)) :
    ∃ place, files.writable? output = some place ∧
      after.stored? place = some (.file text.toUTF8) ∧ SameBut place files after := by
  unfold place at done
  cases made : staging.create files output.parent with
  | none => simp [made] at done
  | some pair =>
    obtain ⟨staged, created⟩ := pair
    obtain ⟨absent, file, same⟩ := lawful.created _ _ _ _ made
    cases filled : staging.write created staged text with
    | error begun => simp [made, filled] at done
    | ok written =>
      obtain ⟨found, same'⟩ := lawful.written _ _ _ _ file filled
      cases moved : staging.persist written staged output with
      | none => simp [made, filled, moved] at done
      | some persisted =>
        simp only [made, filled, moved, Prod.mk.injEq, true_and] at done
        subst done
        obtain ⟨place, writable, here, gone, working, elsewhere⟩ :=
          lawful.persisted _ _ _ _ _ found moved
        -- There is no directory at the staged location at any time, so the path leads where it led.
        have whole := same.trans same'
        have directories := whole.directories (isDirectory_of_stored?_eq_none absent)
          (isDirectory_of_hasFile ⟨_, found⟩)
        rw [directories.writable?] at writable
        refine ⟨place, writable, here, working.trans whole.workingDirectory, fun other apart => ?_⟩
        by_cases waiting : other = staged.location
        · subst waiting
          rw [gone apart, absent]
        · rw [elsewhere other apart waiting, whole.elsewhere other waiting]

end Lawful

end Staging

end TreeLowering.CommandLine
