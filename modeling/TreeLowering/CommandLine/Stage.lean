/-
This file defines the stages of a compilation and sets of them. A user picks the stages to trace by
name; case does not matter, and a dash may stand for an underscore.
-/

import TreeLowering.Text.Blank

namespace TreeLowering.CommandLine

open Text

/-- A stage of a compilation, in the order they run. -/
inductive Stage where
  | preprocess
  | lex
  | parse
  | resolve
  | constEval
  | lower
  | serialize
deriving DecidableEq, Repr, Inhabited

namespace Stage

/-- Every stage once, in order. -/
def all : List Stage := [preprocess, lex, parse, resolve, constEval, lower, serialize]

/-- The name of a stage. -/
def name : Stage → String
  | preprocess => "PREPROCESS"
  | lex => "LEX"
  | parse => "PARSE"
  | resolve => "RESOLVE"
  | constEval => "CONST_EVAL"
  | lower => "LOWER"
  | serialize => "SERIALIZE"

/-- How a stage is spelled on the command line. -/
def spelling : Stage → String
  | preprocess => "preprocess"
  | lex => "lex"
  | parse => "parse"
  | resolve => "resolve"
  | constEval => "const-eval"
  | lower => "lower"
  | serialize => "serialize"

/-- The weight of a stage in the number of a set. -/
def weight : Stage → Nat
  | preprocess => 1
  | lex => 2
  | parse => 4
  | resolve => 8
  | constEval => 16
  | lower => 32
  | serialize => 64

/-- Whether a stage runs before lowering. -/
def isFrontEnd : Stage → Bool
  | lower | serialize => false
  | _ => true

/-- A character of a stage name in its plain form: letters in upper case, a dash as an
underscore. -/
def plainChar (c : Char) : Char := if c = '-' then '_' else c.toUpper

/-- The stage that a word on the command line names. -/
def ofWord? (word : List Char) : Option Stage :=
  let plain := String.ofList ((trim word).map plainChar)
  all.find? fun stage => stage.name == plain

end Stage

/-- A set of stages. -/
structure StageSet where
  has : Stage → Bool

namespace StageSet

def empty : StageSet := ⟨fun _ => false⟩

def full : StageSet := ⟨fun _ => true⟩

instance : Inhabited StageSet := ⟨empty⟩

def single (stage : Stage) : StageSet := ⟨fun other => other == stage⟩

def union (left right : StageSet) : StageSet := ⟨fun stage => left.has stage || right.has stage⟩

/-- The members of a set, in order. -/
def members (set : StageSet) : List Stage := Stage.all.filter set.has

/-- The members of a set that run before lowering. -/
def frontEnd (set : StageSet) : StageSet := ⟨fun stage => set.has stage && stage.isFrontEnd⟩

/-- The number of a set: the sum of the weights of its members. -/
def number (set : StageSet) : Nat :=
  set.members.foldr (fun stage total => stage.weight + total) 0

/-- What to write to the log for a set: warnings always, and one more entry for each part of the
compiler that has a member in the set. -/
def logDirectives (set : StageSet) : String :=
  ",".intercalate (["warn"] ++
    (if set.frontEnd.members.isEmpty then [] else ["tern_driver=debug"]) ++
    (if set.has .lower then ["tern_lower=trace"] else []) ++
    (if set.has .serialize then ["tern_vir=trace"] else []))

end StageSet

end TreeLowering.CommandLine
