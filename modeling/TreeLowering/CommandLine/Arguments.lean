/-
This file reads the command line: one input file, `--debug` or `--debug=` with a list of stages,
and `--ir-out=` with a path. Arguments are read from left to right, and the first one that does not
fit decides the error.
-/

import TreeLowering.CommandLine.Path
import TreeLowering.CommandLine.Stage

namespace TreeLowering.CommandLine

open Text

/-- What a command line asks for. -/
structure Invocation where
  input : Path
  /-- Where the module goes, when it was said. -/
  output : Option Path
  traced : StageSet

/-- The path the module is written to: the one that was asked for, or the input with the extension
`tir`. -/
def Invocation.outputPath (invocation : Invocation) : Path :=
  invocation.output.getD (invocation.input.withExtension "tir")

/-- What can be wrong with a command line. -/
inductive UsageError where
  | missingInput
  | missingOutputPath
  | unknownOption (arg : String)
  | secondInput (first second : String)
  | unknownStage (word : String)
deriving DecidableEq, Repr

/-- The wording of each error. -/
def UsageError.message : UsageError → String
  | missingInput => "missing input file"
  | missingOutputPath => "`--ir-out=` needs a path"
  | unknownOption arg => "unknown option `" ++ arg ++ "`"
  | secondInput first second =>
    "more than one input file (`" ++ first ++ "` and `" ++ second ++ "`)"
  | unknownStage word =>
    "unknown debug stage `" ++ word ++ "` (expected one of: " ++
      ", ".intercalate (Stage.all.map Stage.spelling) ++ ")"

/-- One argument, by its form. -/
inductive Argument where
  | traceAll
  | trace (stages : List Char)
  | output (path : List Char)
  | option (text : List Char)
  | input (text : List Char)
deriving DecidableEq, Repr

/-- The form of an argument. -/
def Argument.ofText (text : List Char) : Argument :=
  if text = "--debug".toList then .traceAll
  else
    match dropStart? "--debug=".toList text with
    | some stages => .trace stages
    | none =>
      match dropStart? "--ir-out=".toList text with
      | some path => .output path
      | none => if startsWith "-" text then .option text else .input text

/-- The stages named by the words of a list; blank words are passed over. -/
def stagesOfWords : List (List Char) → Except UsageError StageSet
  | [] => .ok .empty
  | word :: rest =>
    if (trim word).isEmpty then stagesOfWords rest
    else
      match Stage.ofWord? word with
      | none => .error (.unknownStage (String.ofList (trim word)))
      | some stage => (stagesOfWords rest).map fun stages => (StageSet.single stage).union stages

/-- The stages named in a list with commas between its words. -/
def stagesOfList (list : List Char) : Except UsageError StageSet :=
  stagesOfWords (pieces ',' list)

/-- What the arguments read so far have asked for. -/
structure Request where
  input : Option Path
  output : Option Path
  traced : StageSet

/-- Nothing has been asked for yet. -/
def Request.empty : Request := ⟨none, none, .empty⟩

/-- Adds one argument to a request. -/
def Request.add (request : Request) : Argument → Except UsageError Request
  | .traceAll => .ok { request with traced := .full }
  | .trace list =>
    (stagesOfList list).map fun stages =>
      { request with traced := request.traced.union stages }
  | .output path =>
    if path.isEmpty then .error .missingOutputPath
    else .ok { request with output := some ⟨String.ofList path⟩ }
  | .option text => .error (.unknownOption (String.ofList text))
  | .input text =>
    match request.input with
    | some first => .error (.secondInput first.text (String.ofList text))
    | none => .ok { request with input := some ⟨String.ofList text⟩ }

/-- Adds arguments from left to right. -/
def Request.addAll (request : Request) : List Argument → Except UsageError Request
  | [] => .ok request
  | arg :: rest => do
    let request ← request.add arg
    request.addAll rest

/-- Reads a command line, the name of the program not included. -/
def parseArguments (args : List String) : Except UsageError Invocation := do
  let request ← Request.empty.addAll (args.map fun arg => Argument.ofText arg.toList)
  match request.input with
  | some input => return ⟨input, request.output, request.traced⟩
  | none => throw .missingInput

end TreeLowering.CommandLine
