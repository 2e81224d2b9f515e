/-
This file says what a command line asks for and what can be wrong with it, and proves that it is
read so. While the arguments are read from left to right, the request covers those that were read:
it holds their input, their last output path and the stages they name. An argument either extends
what is covered or is the first one that offends.
-/

import TreeLowering.Proofs.CommandLine.Stage

namespace TreeLowering.CommandLine

open Text

/-! ### What arguments mean -/

/-- An argument that names an input: it does not begin with a dash. -/
def isInput (arg : String) : Bool := !arg.startsWith "-"

/-- An argument that says where the module goes. -/
def isOutput (arg : String) : Bool := arg.startsWith "--ir-out="

/-- An argument is `--debug=` and these words, with commas between them. -/
structure Lists (arg : String) (words : List String) : Prop where
  text : arg = "--debug=" ++ ",".intercalate words
  nonempty : words ≠ []
  apart : ∀ word ∈ words, ',' ∉ word.toList

/-- The options that a command line may hold. -/
inductive IsOption : String → Prop
  | traceAll : IsOption "--debug"
  | output {path : String} (given : path ≠ "") : IsOption ("--ir-out=" ++ path)
  | trace {arg : String} {words : List String} (lists : Lists arg words)
      (accepted : ∀ word ∈ words, Accepted word) : IsOption arg

/-- An argument selects a stage to trace: it selects all of them, or the stage is in its list. -/
def Selects (arg : String) (stage : Stage) : Prop :=
  arg = "--debug" ∨ ∃ words, Lists arg words ∧ ∃ word ∈ words, stage.NamedBy word

/-- What is wrong with an argument behind others. -/
inductive Offends (before : List String) : String → UsageError → Prop
  | output : Offends before "--ir-out=" .missingOutputPath
  | trace {arg word : String} {known rest : List String} (lists : Lists arg (known ++ word :: rest))
      (accepted : ∀ other ∈ known, Accepted other) (refused : ¬ Accepted word) :
      Offends before arg (.unknownStage (String.ofList (trim word.toList)))
  | option {arg : String} (dash : isInput arg = false) (other : arg ≠ "--debug")
      (noList : arg.startsWith "--debug=" = false) (noOutput : isOutput arg = false) :
      Offends before arg (.unknownOption arg)
  | input {arg first : String} (plain : isInput arg = true)
      (taken : before.find? isInput = some first) : Offends before arg (.secondInput first arg)

/-- No argument offends behind those before it. -/
def Unoffending (args : List String) : Prop :=
  ∀ before arg after cause, args = before ++ arg :: after → ¬ Offends before arg cause

/-- The leftmost argument that offends is wrong in this way. -/
def FirstOffence (args : List String) (cause : UsageError) : Prop :=
  ∃ before arg after, args = before ++ arg :: after ∧ Unoffending before ∧ Offends before arg cause

/-- Exactly one argument is an input, and all others are options. -/
structure Acceptable (args : List String) : Prop where
  input : ∃ input, args.filter isInput = [input]
  options : ∀ arg ∈ args, isInput arg = false → IsOption arg

/-- An invocation is what the arguments ask for. -/
structure Invocation.Answers (invocation : Invocation) (args : List String) : Prop where
  input : args.filter isInput = [invocation.input.text]
  /-- The last output path counts. -/
  output : (args.filter isOutput).getLast? =
    invocation.output.map fun path => "--ir-out=" ++ path.text
  traced : ∀ stage, invocation.traced.has stage = true ↔ ∃ arg ∈ args, Selects arg stage

/-! ### Forms of arguments -/

/-- Which form an argument has. -/
inductive Argument.Fits : Argument → String → Prop
  | traceAll : Fits .traceAll "--debug"
  | trace (list : String) : Fits (.trace list.toList) ("--debug=" ++ list)
  | output (path : String) : Fits (.output path.toList) ("--ir-out=" ++ path)
  | option {arg : String} (dash : isInput arg = false) (other : arg ≠ "--debug")
      (noList : arg.startsWith "--debug=" = false) (noOutput : isOutput arg = false) :
      Fits (.option arg.toList) arg
  | input {arg : String} (plain : isInput arg = true) : Fits (.input arg.toList) arg

theorem startsWith_toList (start arg : String) :
    startsWith start arg.toList = arg.startsWith start := by
  rw [Bool.eq_iff_iff, startsWith, Option.isSome_iff_exists, String.startsWith_string_iff]
  exact exists_congr fun rest => dropStart?_eq_some_iff.trans eq_comm

theorem eq_append_of_dropStart? {start arg : String} {rest : List Char}
    (found : dropStart? start.toList arg.toList = some rest) :
    arg = start ++ String.ofList rest := by
  rw [← String.toList_inj, String.toList_append, String.toList_ofList]
  exact dropStart?_eq_some_iff.1 found

theorem dropStart?_eq_none_iff {start arg : String} :
    dropStart? start.toList arg.toList = none ↔ arg.startsWith start = false := by
  rw [← startsWith_toList, startsWith, Option.isSome_eq_false_iff, Option.isNone_iff_eq_none]

/-- An argument is read by its form. -/
theorem Argument.fits_ofText (arg : String) : (Argument.ofText arg.toList).Fits arg := by
  unfold Argument.ofText
  split
  next same =>
    rw [String.toList_inj.1 same]
    exact .traceAll
  next other =>
  have other : arg ≠ "--debug" := mt (congrArg String.toList) other
  split
  next stages found =>
    rw [eq_append_of_dropStart? found]
    simpa using Fits.trace (String.ofList stages)
  next noList =>
  split
  next path found =>
    rw [eq_append_of_dropStart? found]
    simpa using Fits.output (String.ofList path)
  next noOutput =>
  rw [startsWith_toList]
  split
  next dash =>
    exact .option (by simp [isInput, dash]) other (dropStart?_eq_none_iff.1 noList)
      (dropStart?_eq_none_iff.1 noOutput)
  next plain => exact .input (by simp [isInput, plain])

theorem isInput_append (rest : String) :
    isInput ("--debug=" ++ rest) = false ∧ isInput ("--ir-out=" ++ rest) = false := by
  simp [isInput, String.startsWith_string_iff]

theorem isOutput_append (rest : String) :
    isOutput ("--debug=" ++ rest) = false ∧ isOutput ("--ir-out=" ++ rest) = true := by
  simp [isOutput, String.startsWith_string_iff, String.startsWith_string_eq_false_iff]

/-- An input begins with nothing that begins with a dash. -/
theorem startsWith_of_isInput {start arg : String} (plain : isInput arg = true)
    (dash : "-".toList <+: start.toList) : arg.startsWith start = false := by
  rw [isInput, Bool.not_eq_true', String.startsWith_string_eq_false_iff] at plain
  exact String.startsWith_string_eq_false_iff.2 fun starts => plain (dash.trans starts)

/-- The form of an argument is the one it is read by. -/
theorem Argument.Fits.ofText {form : Argument} {arg : String} (fits : form.Fits arg) :
    Argument.ofText arg.toList = form := by
  cases fits with
  | traceAll => decide
  | trace list => simp [Argument.ofText, dropStart?]
  | output path => simp [Argument.ofText, dropStart?]
  | option dash other noList noOutput =>
    have dash' : startsWith "-" arg.toList = true := by
      simpa [isInput, startsWith_toList] using dash
    rw [Argument.ofText, if_neg (mt String.toList_inj.1 other), dropStart?_eq_none_iff.2 noList,
      dropStart?_eq_none_iff.2 noOutput]
    exact if_pos dash'
  | input plain =>
    have other : arg ≠ "--debug" := by
      rintro rfl
      simp [isInput] at plain
    have noList : arg.startsWith "--debug=" = false := startsWith_of_isInput plain (by decide)
    have noOutput : arg.startsWith "--ir-out=" = false := startsWith_of_isInput plain (by decide)
    have noDash : startsWith "-" arg.toList = false :=
      (startsWith_toList ..).trans (startsWith_of_isInput plain List.prefix_rfl)
    rw [Argument.ofText, if_neg (mt String.toList_inj.1 other), dropStart?_eq_none_iff.2 noList,
      dropStart?_eq_none_iff.2 noOutput]
    simp [noDash]

theorem Argument.Fits.unique {form form' : Argument} {arg : String} (fits : form.Fits arg)
    (fits' : form'.Fits arg) : form = form' :=
  fits.ofText.symm.trans fits'.ofText

/-! ### Lists of words -/

theorem joinPieces_eq_intercalate (mark : Char) (list : List (List Char)) :
    joinPieces mark list = [mark].intercalate list := by
  induction list with
  | nil => rfl
  | cons piece rest inductionHypothesis =>
    cases rest with
    | nil => rw [joinPieces, List.intercalate_singleton]
    | cons next rest =>
      rw [joinPieces, inductionHypothesis, List.intercalate_cons_cons, List.append_assoc,
        List.singleton_append]
      exact List.cons_ne_nil next rest

/-- The words of a list are the pieces between its commas. -/
theorem Lists.fits {arg : String} {words : List String} (lists : Lists arg words) :
    ∃ list, (Argument.trace list).Fits arg ∧ pieces ',' list = words.map String.toList := by
  obtain ⟨rfl, nonempty, apart⟩ := lists
  refine ⟨_, .trace _, ?_⟩
  rw [String.toList_intercalate]
  exact (congrArg (pieces ',') (joinPieces_eq_intercalate ',' _).symm).trans
    (pieces_joinPieces (mt List.map_eq_nil_iff.1 nonempty) (List.forall_mem_map.2 apart))

theorem Argument.Fits.lists {list : List Char} {arg : String}
    (fits : (Argument.trace list).Fits arg) :
    ∃ words, Lists arg words ∧ pieces ',' list = words.map String.toList := by
  have texts : ((pieces ',' list).map String.ofList).map String.toList = pieces ',' list := by
    simp
  refine ⟨(pieces ',' list).map String.ofList, ⟨?_, ?_, ?_⟩, texts.symm⟩
  · have text : arg = "--debug=" ++ String.ofList list := by
      cases fits with
      | trace list => rw [String.ofList_toList]
    have joined := (joinPieces_eq_intercalate ',' _).symm.trans (joinPieces_pieces ',' list)
    rw [text, ← String.toList_inj]
    simp only [String.toList_append, String.toList_intercalate, texts, String.toList_ofList]
    exact congrArg _ joined.symm
  · exact mt List.map_eq_nil_iff.1 (pieces_ne_nil ',' list)
  · refine List.forall_mem_map.2 fun piece listed => ?_
    rw [String.toList_ofList]
    exact not_mem_of_mem_pieces listed

theorem Lists.unique {arg : String} {words words' : List String} (lists : Lists arg words)
    (lists' : Lists arg words') : words = words' := by
  obtain ⟨list, fits, split⟩ := lists.fits
  obtain ⟨list', fits', split'⟩ := lists'.fits
  cases fits.unique fits'
  exact List.map_injective_iff.2 (fun _ _ => String.toList_inj.1) (split.symm.trans split')

/-! ### One argument more -/

/-- A request holds what the arguments ask for. -/
structure Request.Covers (request : Request) (args : List String) : Prop where
  input : args.filter isInput = (request.input.map Path.text).toList
  output : (args.filter isOutput).getLast? =
    request.output.map fun path => "--ir-out=" ++ path.text
  traced : ∀ stage, request.traced.has stage = true ↔ ∃ arg ∈ args, Selects arg stage
  options : ∀ arg ∈ args, isInput arg = false → IsOption arg

theorem Request.covers_empty : Request.empty.Covers [] :=
  ⟨rfl, rfl, fun stage => by simp [Request.empty, StageSet.empty], nofun⟩

/-- Only arguments of two forms select stages. -/
theorem Selects.fits {arg : String} {stage : Stage} (selects : Selects arg stage) :
    Argument.traceAll.Fits arg ∨ ∃ list, (Argument.trace list).Fits arg := by
  rcases selects with rfl | ⟨words, lists, _⟩
  · exact .inl .traceAll
  · obtain ⟨list, fits, _⟩ := lists.fits
    exact .inr ⟨list, fits⟩

namespace Request.Covers

variable {request request' : Request} {args : List String} {arg : String}

theorem output_append (covers : request.Covers args) (other : isOutput arg = false) :
    ((args ++ [arg]).filter isOutput).getLast? =
      request.output.map fun path => "--ir-out=" ++ path.text := by
  rw [List.filter_append, List.filter_singleton, other, ← covers.output]
  exact congrArg _ (List.append_nil _)

/-- What a request covers grows by an option. -/
theorem option (covers : request.Covers args) (dash : isInput arg = false) (option : IsOption arg)
    (output : ((args ++ [arg]).filter isOutput).getLast? =
      request'.output.map fun path => "--ir-out=" ++ path.text)
    (traced : ∀ stage, request'.traced.has stage = true ↔
      request.traced.has stage = true ∨ Selects arg stage)
    (same : request'.input = request.input) : request'.Covers (args ++ [arg]) := by
  refine ⟨?_, output, fun stage => ?_, fun other member plain => ?_⟩
  · rw [List.filter_append, covers.input, List.filter_singleton, dash, same]
    exact List.append_nil _
  · rw [traced, covers.traced]
    simp [or_and_right, exists_or]
  · rcases List.mem_append.1 member with earlier | last
    · exact covers.options other earlier plain
    · exact List.mem_singleton.1 last ▸ option

/-- An argument of another kind selects no stage. -/
theorem not_selects {form : Argument} (fits : form.Fits arg) (noList : ∀ list, form ≠ .trace list)
    (notAll : form ≠ .traceAll) (stage : Stage) : ¬ Selects arg stage := by
  intro selects
  rcases selects.fits with fits' | ⟨list, fits'⟩
  · exact notAll (fits.unique fits')
  · exact noList list (fits.unique fits')

/-- A list of stages is covered, or it offends with its first word that is no stage. -/
theorem add_trace (covers : request.Covers args) (list : String) :
    (∃ request', request.add (.trace list.toList) = .ok request' ∧
        request'.Covers (args ++ ["--debug=" ++ list])) ∨
      ∃ cause, request.add (.trace list.toList) = .error cause ∧
        Offends args ("--debug=" ++ list) cause := by
  obtain ⟨words, lists, split⟩ := (Argument.Fits.trace list).lists
  have words_read : stagesOfList list.toList = stagesOfWords (words.map String.toList) := by
    rw [stagesOfList, split]
  cases read : stagesOfWords (words.map String.toList) with
  | error cause =>
    refine .inr ⟨cause, by rw [Request.add, words_read, read]; rfl, ?_⟩
    obtain ⟨before, word, after, rfl, accepted, refused, rfl⟩ := word_of_stagesOfWords read
    exact .trace lists accepted refused
  | ok set =>
    obtain ⟨accepted, has⟩ := has_of_stagesOfWords read
    refine .inl ⟨{ request with traced := request.traced.union set },
      by rw [Request.add, words_read, read]; rfl,
      covers.option (isInput_append list).1 (.trace lists accepted)
        (covers.output_append (isOutput_append list).1) (fun stage => ?_) rfl⟩
    have selects : Selects ("--debug=" ++ list) stage ↔ set.has stage = true := by
      rw [has]
      constructor
      · rintro (same | ⟨words', lists', named⟩)
        · cases (same ▸ Argument.Fits.traceAll).unique (Argument.Fits.trace list)
        · rwa [lists'.unique lists] at named
      · exact fun named => .inr ⟨words, lists, named⟩
    rw [selects]
    exact Bool.or_eq_true_iff

/-- An output path is covered unless it is empty. -/
theorem add_output (covers : request.Covers args) (path : String) :
    (∃ request', request.add (.output path.toList) = .ok request' ∧
        request'.Covers (args ++ ["--ir-out=" ++ path])) ∨
      ∃ cause, request.add (.output path.toList) = .error cause ∧
        Offends args ("--ir-out=" ++ path) cause := by
  by_cases empty : path = ""
  · subst empty
    exact .inr ⟨_, rfl, .output⟩
  · refine .inl ⟨{ request with output := some ⟨path⟩ }, ?_, covers.option (isInput_append path).2
      (.output empty) ?_ (fun stage => ?_) rfl⟩
    · have full : ¬ path.toList.isEmpty = true := by simpa using empty
      rw [Request.add, if_neg full, String.ofList_toList]
    · rw [List.filter_append, List.filter_singleton, (isOutput_append path).2]
      exact List.getLast?_concat ..
    · exact (or_iff_left (not_selects (Argument.Fits.output path) nofun nofun stage)).symm

/-- An input is covered if it is the first one. -/
theorem add_input (covers : request.Covers args) (plain : isInput arg = true) :
    (∃ request', request.add (.input arg.toList) = .ok request' ∧ request'.Covers (args ++ [arg])) ∨
      ∃ cause, request.add (.input arg.toList) = .error cause ∧ Offends args arg cause := by
  have first : args.find? isInput = request.input.map Path.text := by
    rw [← List.head?_filter, covers.input]
    cases request.input <;> rfl
  cases taken : request.input with
  | some path =>
    rw [taken] at first
    refine .inr ⟨_, by rw [Request.add, taken], ?_⟩
    rw [String.ofList_toList]
    exact .input plain first
  | none =>
    refine .inl ⟨{ request with input := some ⟨arg⟩ },
      by rw [Request.add, taken, String.ofList_toList], ?_,
      covers.output_append (startsWith_of_isInput plain (by decide)), fun stage => ?_,
      fun other member dash => ?_⟩
    · rw [List.filter_append, covers.input, taken, List.filter_singleton, plain]
      rfl
    · rw [covers.traced]
      simp [or_and_right, exists_or, not_selects (Argument.Fits.input plain) nofun nofun stage]
    · rcases List.mem_append.1 member with earlier | last
      · exact covers.options other earlier dash
      · rw [List.mem_singleton.1 last, plain] at dash
        cases dash

/-- One argument more is covered, or it offends. -/
theorem add {form : Argument} (covers : request.Covers args) (fits : form.Fits arg) :
    (∃ request', request.add form = .ok request' ∧ request'.Covers (args ++ [arg])) ∨
      ∃ cause, request.add form = .error cause ∧ Offends args arg cause := by
  cases fits with
  | traceAll =>
    refine .inl ⟨_, rfl, covers.option (by simp [isInput]) .traceAll
      (covers.output_append (by simp [isOutput])) (fun stage => ?_) rfl⟩
    simp [Selects, StageSet.full]
  | trace list => exact covers.add_trace list
  | output path => exact covers.add_output path
  | option dash other noList noOutput =>
    refine .inr ⟨_, rfl, ?_⟩
    rw [String.ofList_toList]
    exact .option dash other noList noOutput
  | input plain => exact covers.add_input plain

/-- An argument that offends is refused. -/
theorem refused {cause : UsageError} (covers : request.Covers args)
    (offends : Offends args arg cause) :
    request.add (Argument.ofText arg.toList) = .error cause := by
  cases offends with
  | output =>
    have fits : (Argument.output []).Fits "--ir-out=" := Argument.Fits.output ""
    rw [fits.ofText]
    rfl
  | trace lists accepted refused =>
    obtain ⟨list, fits, split⟩ := lists.fits
    rw [fits.ofText, Request.add, stagesOfList, split, stagesOfWords_error accepted refused]
    rfl
  | option dash other noList noOutput =>
    rw [(Argument.Fits.option dash other noList noOutput).ofText, Request.add, String.ofList_toList]
  | input plain taken =>
    rw [← List.head?_filter, covers.input] at taken
    rw [(Argument.Fits.input plain).ofText, Request.add, String.ofList_toList]
    cases found : request.input with
    | none =>
      rw [found] at taken
      cases taken
    | some path =>
      rw [found] at taken
      cases taken
      rfl

end Request.Covers

/-! ### All arguments -/

theorem Unoffending.nil : Unoffending [] := by
  intro before arg after cause same
  simp at same

theorem Unoffending.append {args : List String} {arg : String} (fine : Unoffending args)
    (last : ∀ cause, ¬ Offends args arg cause) : Unoffending (args ++ [arg]) := by
  intro before other after cause same
  rcases List.eq_nil_or_concat' after with rfl | ⟨after, final, rfl⟩
  · obtain ⟨rfl, rfl⟩ := List.append_inj' same rfl |>.imp id List.singleton_inj.1
    exact last cause
  · rw [← List.cons_append, ← List.append_assoc] at same
    exact fine before other after cause (List.append_inj' same rfl).1

namespace Request

variable {request : Request} {args done : List String}

/-- The request that the arguments make, one after the other. -/
def read (request : Request) (args : List String) : Except UsageError Request :=
  request.addAll (args.map fun arg => Argument.ofText arg.toList)

theorem read_cons (arg : String) (rest : List String) : request.read (arg :: rest) =
    (request.add (Argument.ofText arg.toList)).bind fun request => request.read rest := rfl

theorem read_append (rest : List String) :
    request.read (args ++ rest) = (request.read args).bind fun request => request.read rest := by
  induction args generalizing request with
  | nil => rfl
  | cons arg args inductionHypothesis =>
    rw [List.cons_append, read_cons, read_cons]
    cases request.add (Argument.ofText arg.toList) with
    | ok request => exact inductionHypothesis
    | error cause => rfl

/-- A run over the arguments covers all of them, or stops at the first one that offends. -/
theorem Covers.read (covers : request.Covers done) (fine : Unoffending done) (args : List String) :
    (∃ request', request.read args = .ok request' ∧ request'.Covers (done ++ args) ∧
        Unoffending (done ++ args)) ∨
      ∃ cause, request.read args = .error cause ∧ FirstOffence (done ++ args) cause := by
  induction args generalizing request done with
  | nil => exact .inl ⟨request, rfl, by rwa [List.append_nil], by rwa [List.append_nil]⟩
  | cons arg rest inductionHypothesis =>
    rw [read_cons, List.append_cons]
    rcases covers.add (Argument.fits_ofText arg) with
      ⟨request', added, covers'⟩ | ⟨cause, refused, offends⟩
    · have last : ∀ cause, ¬ Offends done arg cause := fun cause offends => by
        cases added.symm.trans (covers.refused offends)
      rw [added]
      exact inductionHypothesis covers' (fine.append last)
    · rw [refused]
      exact .inr ⟨cause, rfl, done, arg, rest, by rw [List.append_assoc]; rfl, fine, offends⟩

/-- Where no argument offends, all are covered. -/
theorem covers_of_unoffending (fine : Unoffending args) :
    ∃ request, empty.read args = .ok request ∧ request.Covers args := by
  rcases covers_empty.read .nil args with
    ⟨request, ok, covers, _⟩ | ⟨_, _, before, arg, after, same, _, offends⟩
  · exact ⟨request, ok, covers⟩
  · exact absurd offends (fine before arg after _ same)

theorem read_of_firstOffence {cause : UsageError} (first : FirstOffence args cause) :
    empty.read args = .error cause := by
  obtain ⟨before, arg, after, rfl, fine, offends⟩ := first
  obtain ⟨request, ok, covers⟩ := covers_of_unoffending fine
  rw [read_append, ok]
  show request.read (arg :: after) = _
  rw [read_cons, covers.refused offends]
  rfl

end Request

/-- An option is added to any request. -/
theorem IsOption.add {arg : String} (option : IsOption arg) (request : Request) :
    ∃ request', request.add (Argument.ofText arg.toList) = .ok request' := by
  cases option with
  | traceAll => exact ⟨_, by rw [Argument.Fits.traceAll.ofText]; rfl⟩
  | @output path given =>
    have full : ¬ path.toList.isEmpty = true := by simpa using given
    exact ⟨_, by rw [(Argument.Fits.output path).ofText, Request.add, if_neg full]⟩
  | @trace _ words lists accepted =>
    obtain ⟨list, fits, split⟩ := lists.fits
    rw [fits.ofText, Request.add, stagesOfList, split]
    cases read : stagesOfWords (words.map String.toList) with
    | ok set => exact ⟨_, rfl⟩
    | error cause =>
      obtain ⟨before, word, after, rfl, _, refused, _⟩ := word_of_stagesOfWords read
      exact absurd (accepted word (by simp)) refused

/-- Where all arguments are acceptable, none offends. -/
theorem Acceptable.unoffending {args : List String} (acceptable : Acceptable args) :
    Unoffending args := by
  rcases Request.covers_empty.read .nil args with
    ⟨_, _, _, fine⟩ | ⟨_, _, before, arg, after, rfl, fine, offends⟩
  · exact fine
  obtain ⟨request, _, covers⟩ := Request.covers_of_unoffending fine
  have refused := covers.refused offends
  cases plain : isInput arg with
  | false =>
    obtain ⟨request', added⟩ := (acceptable.options arg (by simp) plain).add request
    cases added.symm.trans refused
  | true =>
    -- it is the only input, so there was none before it
    obtain ⟨input, only⟩ := acceptable.input
    rw [List.filter_append, List.filter_cons_of_pos plain, covers.input] at only
    cases taken : request.input with
    | some path => simp [taken] at only
    | none =>
      rw [(Argument.Fits.input plain).ofText, Request.add, taken] at refused
      cases refused

theorem Acceptable.of_perm {args args' : List String} (acceptable : Acceptable args)
    (perm : args'.Perm args) : Acceptable args' := by
  obtain ⟨input, only⟩ := acceptable.input
  exact ⟨⟨input, List.perm_singleton.1 (only ▸ perm.filter isInput)⟩,
    fun arg member => acceptable.options arg (perm.mem_iff.1 member)⟩

theorem Path.text_injective : Function.Injective Path.text := by
  rintro ⟨text⟩ ⟨text'⟩ same
  exact congrArg Path.mk same

/-- Arguments in another order ask for the same, if the last output path stays the last. -/
theorem Invocation.Answers.eq_of_perm {invocation invocation' : Invocation}
    {args args' : List String} (answers : invocation.Answers args)
    (answers' : invocation'.Answers args') (perm : args'.Perm args)
    (outputs : args'.filter isOutput = args.filter isOutput) :
    invocation' = invocation := by
  obtain ⟨input, output, ⟨traced⟩⟩ := invocation
  obtain ⟨input', output', ⟨traced'⟩⟩ := invocation'
  have sameInput : input' = input := by
    have inputs := perm.filter isInput
    rw [answers.input, answers'.input, List.singleton_perm_singleton] at inputs
    exact Path.text_injective inputs
  have sameOutput : output' = output := by
    have last := answers'.output
    rw [outputs, answers.output] at last
    refine Option.map_injective (fun path path' same => ?_) last.symm
    exact Path.text_injective (by simpa using same)
  have sameTraced : traced' = traced := by
    funext stage
    rw [Bool.eq_iff_iff]
    refine (answers'.traced stage).trans (Iff.trans ?_ (answers.traced stage).symm)
    simp only [perm.mem_iff]
  rw [sameInput, sameOutput, sameTraced]

/-- What is made of a request when all arguments have been read. -/
theorem parseArguments_eq (args : List String) :
    parseArguments args = (Request.empty.read args).bind fun request =>
      match request.input with
      | some input => .ok ⟨input, request.output, request.traced⟩
      | none => .error .missingInput := by
  unfold parseArguments Request.read
  cases Request.empty.addAll _ with
  | error cause => rfl
  | ok request => cases request.input <;> rfl

/-- A command line that is read is acceptable, and the invocation answers it. -/
theorem answers_of_parse {args : List String} {invocation : Invocation}
    (parsed : parseArguments args = .ok invocation) :
    Acceptable args ∧ invocation.Answers args := by
  rw [parseArguments_eq] at parsed
  rcases Request.covers_empty.read .nil args with ⟨request, read, covers, _⟩ | ⟨cause, read, _⟩
  · rw [read, Except.bind] at parsed
    cases taken : request.input with
    | none =>
      rw [taken] at parsed
      cases parsed
    | some input =>
      rw [taken] at parsed
      cases parsed
      have only : args.filter isInput = [input.text] := by
        rw [← List.nil_append args, covers.input, taken]
        rfl
      exact ⟨⟨⟨_, only⟩, covers.options⟩, ⟨only, covers.output, covers.traced⟩⟩
  · rw [read] at parsed
    cases parsed

/-- Every acceptable command line is read. -/
theorem Acceptable.parse {args : List String} (acceptable : Acceptable args) :
    ∃ invocation, parseArguments args = .ok invocation := by
  obtain ⟨request, read, covers⟩ := Request.covers_of_unoffending acceptable.unoffending
  obtain ⟨input, only⟩ := acceptable.input
  rw [covers.input] at only
  rw [parseArguments_eq, read, Except.bind]
  cases taken : request.input with
  | none =>
    rw [taken] at only
    cases only
  | some path => exact ⟨_, rfl⟩

/-- What a command line is refused for. -/
theorem parseArguments_eq_error_iff {args : List String} {cause : UsageError} :
    parseArguments args = .error cause ↔ FirstOffence args cause ∨
      cause = .missingInput ∧ Unoffending args ∧ args.filter isInput = [] := by
  constructor
  · intro refused
    rw [parseArguments_eq] at refused
    rcases Request.covers_empty.read .nil args with
      ⟨request, read, covers, fine⟩ | ⟨cause', read, first⟩
    · rw [read, Except.bind] at refused
      have inputs := covers.input
      cases taken : request.input with
      | some input =>
        rw [taken] at refused
        cases refused
      | none =>
        rw [taken] at refused inputs
        cases refused
        exact .inr ⟨rfl, fine, inputs⟩
    · rw [read] at refused
      cases refused
      exact .inl first
  · rw [parseArguments_eq]
    rintro (first | ⟨rfl, fine, none⟩)
    · rw [Request.read_of_firstOffence first]
      rfl
    · obtain ⟨request, read, covers⟩ := Request.covers_of_unoffending fine
      rw [covers.input] at none
      rw [read, Except.bind]
      cases taken : request.input with
      | none => rfl
      | some input =>
        rw [taken] at none
        cases none

/-- A command line is accepted if exactly one argument is an input and all others are options. The
invocation is then what the arguments ask for, in any order that keeps the outputs as they stand.
What is not accepted is refused for its first argument that offends, and for a missing input if none
does. -/
theorem parseArguments_settled (args : List String) :
    ((∃ invocation, parseArguments args = .ok invocation) ↔ Acceptable args) ∧
    (∀ invocation, parseArguments args = .ok invocation → invocation.Answers args) ∧
    (∀ args', Acceptable args → args'.Perm args →
      args'.filter isOutput = args.filter isOutput → parseArguments args' = parseArguments args) ∧
    ∀ cause, parseArguments args = .error cause ↔ FirstOffence args cause ∨
      cause = .missingInput ∧ Unoffending args ∧ args.filter isInput = [] := by
  refine ⟨⟨fun ⟨_, parsed⟩ => (answers_of_parse parsed).1, Acceptable.parse⟩,
    fun _ parsed => (answers_of_parse parsed).2, fun args' acceptable perm outputs => ?_,
    fun _ => parseArguments_eq_error_iff⟩
  obtain ⟨invocation, parsed⟩ := acceptable.parse
  obtain ⟨invocation', parsed'⟩ := (acceptable.of_perm perm).parse
  rw [parsed, parsed']
  exact congrArg Except.ok ((answers_of_parse parsed).2.eq_of_perm (answers_of_parse parsed').2 perm
    outputs)

/-- A command line that says twice where the module goes, and traces two stages. -/
def generous : List String :=
  ["--ir-out=first.tir", "--debug= Lex ,,const_eval", "main.tn", "--ir-out=last.tir"]

/-- The same, with the input and the outputs first. -/
def rearranged : List String :=
  ["main.tn", "--ir-out=first.tir", "--ir-out=last.tir", "--debug= Lex ,,const_eval"]

theorem generous_settled : Acceptable generous ∧ rearranged.Perm generous ∧
    rearranged.filter isOutput = generous.filter isOutput ∧
    parseArguments rearranged = parseArguments generous ∧
    (∃ invocation, parseArguments generous = .ok invocation ∧ invocation.Answers generous) ∧
    FirstOffence ["--debug=lex,codegen", "--bogus"] (.unknownStage "codegen") := by
  obtain ⟨accepted, answers, reordered, _⟩ := parseArguments_settled generous
  have parsed : ∃ invocation, parseArguments generous = .ok invocation := ⟨_, rfl⟩
  obtain ⟨invocation, parsed⟩ := parsed
  have acceptable := accepted.1 ⟨invocation, parsed⟩
  have perm : rearranged.Perm generous := by decide
  have outputs : rearranged.filter isOutput = generous.filter isOutput := by decide +kernel
  have refused : parseArguments ["--debug=lex,codegen", "--bogus"] =
      .error (.unknownStage "codegen") := rfl
  have first := ((parseArguments_settled _).2.2.2 _).1 refused
  exact ⟨acceptable, perm, outputs, reordered rearranged acceptable perm outputs,
    ⟨invocation, parsed, answers invocation parsed⟩, first.resolve_right nofun⟩

end TreeLowering.CommandLine
