/-
This file compiles one file: it reads the source, hands it to a front end, lowers the program that
comes back and writes the listing of the module. Output is all or nothing. Whatever fails, every
file stays as it was.
-/

import TreeLowering.CommandLine.Arguments
import TreeLowering.CommandLine.Staging
import TreeLowering.Ir.Listing
import TreeLowering.Lowering.Program

namespace TreeLowering.CommandLine

open Lowering

/-- The objection of a front end to a source file. -/
structure Rejection where
  path : Path
  /-- The byte of the source the objection points at. -/
  offset : Nat
  message : String
deriving DecidableEq, Repr

/-- What turns the text of a file into a resolved program. It is told which of its stages to
trace. -/
abbrev FrontEnd := Path → String → StageSet → Except Rejection Source

/-- Why a compilation failed. -/
inductive Failure where
  | usage (cause : UsageError)
  /-- A file could not be read or written. -/
  | files (path : Path)
  | rejected (rejection : Rejection)
  | lowering (path : Path) (cause : Lowering.Error)

/-- The wording of a failure. What the operating system says about a file is not known here. -/
def Failure.message : Failure → String
  | usage cause => cause.message
  | files path => path.text
  | rejected rejection =>
    rejection.path.text ++ ":" ++ toString rejection.offset ++ ": " ++ rejection.message
  | lowering path cause => path.text ++ ":" ++ cause.message

/-- The result of a compilation: the path of the module, or why there is none. -/
structure Outcome where
  result : Except Failure Path
  files : FileSystem
  /-- The stages the front end was asked to trace, when it was reached. -/
  traced : Option StageSet

/-- The module is named after the input file. -/
def moduleName (input : Path) : String :=
  match input.stem? with
  | some stem => if stem = "" then "main" else stem
  | none => "main"

/-- The settings with which a file is lowered. -/
def loweringOptions (input : Path) : Options :=
  { Options.standard with moduleName := moduleName input }

/-- Lowers a resolved program and writes the listing of its module. -/
def emitModule (staging : Staging) (files : FileSystem) (invocation : Invocation)
    (source : Source) : Except Failure Path × FileSystem :=
  match lowerProgram source (loweringOptions invocation.input) with
  | .error cause => (.error (.lowering invocation.input cause), files)
  | .ok target =>
    match staging.place files invocation.outputPath target.listing with
    | (.error path, remaining) => (.error (.files path), remaining)
    | (.ok (), written) => (.ok invocation.outputPath, written)

/-- Compiles one file, with any way of staging the module. -/
def compileThrough (staging : Staging) (files : FileSystem) (frontEnd : FrontEnd)
    (invocation : Invocation) : Outcome :=
  match files.readText? invocation.input with
  | none => ⟨.error (.files invocation.input), files, none⟩
  | some text =>
    let traced := invocation.traced.frontEnd
    match frontEnd invocation.input text traced with
    | .error rejection => ⟨.error (.rejected rejection), files, some traced⟩
    | .ok source =>
      let (result, written) := emitModule staging files invocation source
      ⟨result, written, some traced⟩

/-- Compiles one file. -/
def compile (files : FileSystem) (frontEnd : FrontEnd) (invocation : Invocation) : Outcome :=
  compileThrough .standard files frontEnd invocation

/-- Reads a command line and compiles the file it names. -/
def run (files : FileSystem) (frontEnd : FrontEnd) (args : List String) : Outcome :=
  match parseArguments args with
  | .ok invocation => compile files frontEnd invocation
  | .error cause => ⟨.error (.usage cause), files, none⟩

end TreeLowering.CommandLine
