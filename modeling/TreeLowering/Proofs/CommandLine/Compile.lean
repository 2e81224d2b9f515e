/-
This file proves that a compilation is all or nothing. Either nothing at all has changed, or the
listing of the module stands at the output path and nothing else has changed. Whether the source is
still there then depends on where the output path leads. It is the input path with another
extension, so it leads to the source just when the source has that extension already.
-/

import TreeLowering.CommandLine.Compile
import TreeLowering.Proofs.CommandLine.Staging

namespace TreeLowering.CommandLine

open Lowering

namespace FileSystem

variable {files after : FileSystem} {location place : Location} {path : Path}

/-! ### Texts at paths -/

theorem readText?_eq_some_iff {text : String} : files.readText? path = some text ↔
    ∃ location content, files.locate? path = some location ∧
      files.stored? location = some (.file content) ∧ String.fromUTF8? content = some text := by
  rw [readText?, Option.bind_eq_bind, Option.bind_eq_some_iff]
  constructor
  · rintro ⟨location, found, read⟩
    split at read
    case h_1 content entry => exact ⟨location, content, found, entry, read⟩
    case h_2 => cases read
  · rintro ⟨location, content, found, entry, read⟩
    exact ⟨location, found, by rw [entry]; exact read⟩

/-- A text that was stored is read back. -/
theorem readText?_of_stored? {text : String} (found : files.locate? path = some place)
    (stored : files.stored? place = some (.file text.toUTF8)) : files.readText? path = some text :=
  readText?_eq_some_iff.2 ⟨place, _, found, stored, dif_pos text.isValidUTF8⟩

/-- What is read is the same when the path leads where it led and the same is stored there. -/
theorem readText?_congr (led : after.locate? path = files.locate? path)
    (found : files.locate? path = some location)
    (same : after.stored? location = files.stored? location) :
    after.readText? path = files.readText? path := by
  rw [readText?, readText?, led, found, Option.bind_eq_bind, Option.bind_some, Option.bind_some,
    same]

/-! ### The place beside the source -/

/-- A path that can be written to with another extension, and at which there is a file, ends in a
name. -/
theorem exists_name {extension : String} (found : files.locate? path = some location)
    (file : files.isDirectory location = false)
    (writable : files.writable? (path.withExtension extension) = some place) :
    ∃ front name, path.segments = front ++ [name] ∧ Path.isName name = true := by
  obtain ⟨front, name, whole⟩ := List.eq_nil_or_concat' path.segments
    |>.resolve_left path.segments_ne_nil
  refine ⟨front, name, whole, ?_⟩
  obtain ⟨directory, followed, stepped⟩ := exists_step whole found
  by_contra unnamed
  rw [Path.isName, Bool.not_eq_true, Bool.not_eq_false', Bool.or_eq_true, beq_iff_eq] at unnamed
  rcases unnamed with idle | rfl
  -- An idle piece stays at the directory before it.
  · cases inside : files.isDirectory directory with
    | false => simp [step, inside] at stepped
    | true =>
      have same : directory = location := by simpa [step, inside, idle] using stepped
      rw [← same, inside] at file
      cases file
  -- The directory above takes no extension and cannot be written to.
  · obtain ⟨⟨last, ending, named⟩, _, _⟩ := writable?_eq_some_iff.1 writable
    rw [Path.withExtension_of_parent whole, whole, List.getLast?_concat] at ending
    cases ending
    cases named

/-- A file is where its path leads with another extension just when it has that extension. -/
theorem place_eq_iff {extension : String} (flat : '/' ∉ extension.toList)
    (found : files.locate? path = some location) (file : files.isDirectory location = false)
    (writable : files.writable? (path.withExtension extension) = some place) :
    place = location ↔ path.extension? = some extension := by
  obtain ⟨front, name, whole, named⟩ := exists_name found file writable
  obtain ⟨directory, followed, stepped⟩ := exists_step whole found
  obtain ⟨⟨last, ending, possible⟩, found', _⟩ := writable?_eq_some_iff.1 writable
  rcases Path.segments_withExtension whole named flat with whole' | whole'
  · rw [whole', List.getLast?_concat] at ending
    cases ending
    rw [canName, Bool.and_eq_true, Bool.and_eq_true] at possible
    obtain ⟨directory', followed', stepped'⟩ := exists_step whole' found'
    -- Both names are looked for in the same directory.
    have origins : files.origin (path.withExtension extension) = files.origin path := by
      rw [origin, origin, Path.isAbsolute_congr whole whole']
    rw [origins, followed] at followed'
    cases followed'
    rw [eq_append_of_step named stepped, eq_append_of_step possible.1.1 stepped',
      List.append_cancel_left_eq, List.cons.injEq, String.ofList_inj, and_iff_left rfl, eq_comm,
      Path.eq_stem_append_iff, Path.extension?_of_segments whole named]
    cases (Path.splitExtension name).2 with
    | none => simp
    | some own =>
      rw [Option.map_some, Option.some_inj, Option.some_inj, ← String.toList_inj,
        String.toList_ofList]
  · rw [whole', List.getLast?_concat] at ending
    cases ending
    cases possible

end FileSystem

open FileSystem

variable {staging : Staging} {files after : FileSystem} {frontEnd : FrontEnd}
  {invocation : Invocation} {source : Source} {output : Path} {text : String} {target : Ir.Module}
  {place : Location}

/-! ### The module -/

theorem emitModule_error (lawful : staging.Lawful) {failure : Failure}
    (failed : emitModule staging files invocation source = (.error failure, after)) :
    files.Unchanged after := by
  unfold emitModule at failed
  cases lowered : lowerProgram source (loweringOptions invocation.input) with
  | error cause =>
    simp only [lowered, Prod.mk.injEq] at failed
    exact failed.2 ▸ .refl files
  | ok target =>
    rcases placed : staging.place files invocation.outputPath target.listing with
      ⟨path | done, remaining⟩
    · simp only [lowered, placed, Prod.mk.injEq] at failed
      exact failed.2 ▸ lawful.place_error placed
    · simp [lowered, placed] at failed

theorem emitModule_ok (lawful : staging.Lawful)
    (done : emitModule staging files invocation source = (.ok output, after)) :
    output = invocation.outputPath ∧
      ∃ target place, lowerProgram source (loweringOptions invocation.input) = .ok target ∧
        files.writable? output = some place ∧
        after.stored? place = some (.file target.listing.toUTF8) ∧ SameBut place files after := by
  unfold emitModule at done
  cases lowered : lowerProgram source (loweringOptions invocation.input) with
  | error cause => simp [lowered] at done
  | ok target =>
    rcases placed : staging.place files invocation.outputPath target.listing with
      ⟨path | _, written⟩
    · simp [lowered, placed] at done
    · simp only [lowered, placed, Prod.mk.injEq, Except.ok.injEq] at done
      obtain ⟨rfl, rfl⟩ := done
      obtain ⟨place, settled⟩ := lawful.place_ok placed
      exact ⟨rfl, target, place, rfl, settled⟩

/-! ### The compilation -/

/-- What a compilation has done that got through. -/
structure Delivered (files : FileSystem) (frontEnd : FrontEnd) (invocation : Invocation)
    (text : String) (target : Ir.Module) (place : Location) (after : FileSystem) : Prop where
  /-- The text of the source was read. -/
  read : files.readText? invocation.input = some text
  /-- The program was lowered to a module with the name of the input, without its extension. -/
  lowered : ∃ source, frontEnd invocation.input text invocation.traced.frontEnd = .ok source ∧
    lowerProgram source { Options.standard with
      moduleName := (invocation.input.stem?.filter (· != "")).getD "main" } = .ok target
  /-- The output path leads to one place. -/
  located : files.locate? invocation.outputPath = some place
  /-- The listing of the module was written to that place, and nothing was changed elsewhere. -/
  stored : after.stored? place = some (.file target.listing.toUTF8)
  kept : SameBut place files after
  /-- Every path leads where it led, so the listing can be read at the output path. -/
  sameLocations : ∀ path, after.locate? path = files.locate? path
  listed : after.readText? invocation.outputPath = some target.listing
  /-- When no output path was asked for, the source can be read as before, unless its path has the
  extension of modules. Then the listing has taken its place. -/
  source : invocation.output = none → after.readText? invocation.input =
    some (if invocation.input.extension? = some "tir" then target.listing else text)

theorem moduleName_eq (input : Path) :
    moduleName input = (input.stem?.filter (· != "")).getD "main" := by
  rw [moduleName]
  cases input.stem? with
  | none => rfl
  | some stem => by_cases empty : stem = "" <;> simp [Option.filter, empty]

/-- A listing is stored where no directory was, so every path leads where it led. -/
theorem sameLocations_of_stored (writable : files.writable? output = some place)
    (stored : after.stored? place = some (.file target.listing.toUTF8))
    (kept : SameBut place files after) (path : Path) :
    after.locate? path = files.locate? path :=
  (kept.directories (writable?_eq_some_iff.1 writable).2.2
    (isDirectory_of_hasFile ⟨_, stored⟩)).locate? path

/-- What can be read at the input path, when the listing was written beside it. -/
theorem readText?_input (beside : invocation.output = none)
    (read : files.readText? invocation.input = some text)
    (writable : files.writable? invocation.outputPath = some place)
    (stored : after.stored? place = some (.file target.listing.toUTF8))
    (kept : SameBut place files after) :
    after.readText? invocation.input =
      some (if invocation.input.extension? = some "tir" then target.listing else text) := by
  obtain ⟨location, content, found, entry, _⟩ := readText?_eq_some_iff.1 read
  have led := sameLocations_of_stored writable stored kept invocation.input
  have derived : invocation.outputPath = invocation.input.withExtension "tir" := by
    rw [Invocation.outputPath, beside, Option.getD_none]
  have same : place = location ↔ invocation.input.extension? = some "tir" :=
    place_eq_iff (by decide) found (isDirectory_of_hasFile ⟨content, entry⟩) (derived ▸ writable)
  split
  case isTrue module =>
    rw [← same.2 module] at found
    exact readText?_of_stored? (led.trans found) stored
  case isFalse other =>
    have apart : location ≠ place := fun here => other (same.1 here.symm)
    rw [readText?_congr led found (kept.elsewhere location apart), read]

/-- A compilation that fails changes nothing, and one that gets through does what was asked for and
changes nothing else. -/
theorem compileThrough_settled (lawful : staging.Lawful) (files : FileSystem)
    (frontEnd : FrontEnd) (invocation : Invocation) :
    match compileThrough staging files frontEnd invocation with
    | ⟨.error _, after, _⟩ => files.Unchanged after
    | ⟨.ok output, after, _⟩ => output = invocation.outputPath ∧
        ∃ text target place, Delivered files frontEnd invocation text target place after := by
  unfold compileThrough
  cases read : files.readText? invocation.input with
  | none => exact .refl files
  | some text =>
    dsimp only
    cases resolved : frontEnd invocation.input text invocation.traced.frontEnd with
    | error rejection => exact .refl files
    | ok source =>
      dsimp only
      rcases emitted : emitModule staging files invocation source with ⟨failure | output, after⟩
      · exact emitModule_error lawful emitted
      · obtain ⟨rfl, target, place, lowered, writable, stored, kept⟩ :=
          emitModule_ok lawful emitted
        rw [loweringOptions, moduleName_eq] at lowered
        have located := (writable?_eq_some_iff.1 writable).2.1
        have led := sameLocations_of_stored writable stored kept
        exact ⟨rfl, text, target, place,
          { read := read
            lowered := ⟨source, resolved, lowered⟩
            located := located
            stored := stored
            kept := kept
            sameLocations := led
            listed := readText?_of_stored? ((led _).trans located) stored
            source := fun beside => readText?_input beside read writable stored kept }⟩

/-! ### A small program -/

/-- `fn main() -> i32 { 7 }` -/
def answer : Source where
  names := (Tree.NameTable.initial.intern "main").2
  program :=
    { types := .initial
      scopes := .initial
      arena := ⟨#[⟨.int 7, .nowhere, .i32⟩]⟩
      items := [.function
        { name := ⟨1⟩
          link := ⟨1⟩
          params := []
          ret := .i32
          body := some ⟨0⟩
          scope := .root
          span := .nowhere }] }

/-- The text of the program. -/
def answerText : String := "fn main() -> i32 \x7b 7 \x7d\n"

/-- The text of the program is all there is, in a file of the working directory. -/
def holding (path : Path) : FileSystem :=
  (FileSystem.initial ["work"]).withFile path answerText.toUTF8

/-- What comes of compiling that file when no output path is asked for. -/
def answerOutcome (path : Path) : Outcome :=
  compile (holding path) (fun _ _ _ => .ok answer) ⟨path, none, .empty⟩

/-- The module is written beside the source. -/
theorem answer_settled : (answerOutcome ⟨"answer.tn"⟩).result.toOption = some ⟨"answer.tir"⟩ ∧
    ((answerOutcome ⟨"answer.tn"⟩).files.readText? ⟨"answer.tir"⟩).isSome ∧
    (answerOutcome ⟨"answer.tn"⟩).files.readText? ⟨"answer.tn"⟩ = some answerText := by
  have done : (answerOutcome ⟨"answer.tn"⟩).result.toOption = some ⟨"answer.tir"⟩ := by
    decide +kernel
  have held : (holding ⟨"answer.tn"⟩).readText? ⟨"answer.tn"⟩ = some answerText := by
    decide +kernel
  have settled := compileThrough_settled Staging.lawful_standard (holding ⟨"answer.tn"⟩)
    (fun _ _ _ => .ok answer) ⟨⟨"answer.tn"⟩, none, .empty⟩
  refine ⟨done, ?_⟩
  rw [answerOutcome, compile] at done ⊢
  rcases outcome : compileThrough .standard (holding ⟨"answer.tn"⟩) (fun _ _ _ => .ok answer)
    ⟨⟨"answer.tn"⟩, none, .empty⟩ with ⟨failure | output, after, traced⟩
  · rw [outcome] at done
    cases done
  · rw [outcome] at settled done
    cases done
    obtain ⟨same, text, target, place, delivered⟩ := settled
    obtain rfl : text = answerText := Option.some_inj.1 (delivered.read.symm.trans held)
    have listed := delivered.listed
    rw [← same] at listed
    have kept := delivered.source rfl
    rw [if_neg (by decide +kernel)] at kept
    exact ⟨Option.isSome_iff_exists.2 ⟨_, listed⟩, kept⟩

/-- The module is written over a source that has the extension of modules. -/
theorem answer_overwritten :
    (answerOutcome ⟨"answer.tir"⟩).result.toOption = some ⟨"answer.tir"⟩ ∧
      (holding ⟨"answer.tir"⟩).readText? ⟨"answer.tir"⟩ = some answerText ∧
      (answerOutcome ⟨"answer.tir"⟩).files.readText? ⟨"answer.tir"⟩ ≠ some answerText := by
  decide +kernel

end TreeLowering.CommandLine
