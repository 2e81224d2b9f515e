/-
This file hands out names for instruction results. Temporaries are numbered. The slot of a variable
is given the first of the names `base`, `base.1`, `base.2`, ... that its function does not use yet;
the names of the parameters count as used.
-/

import TreeLowering.Lowering.Build.State

namespace TreeLowering.Lowering

open Ir

namespace Builder

/-- The candidates for a name: `base`, `base.1`, `base.2`, ... -/
def candidate (base : String) : (number : Nat) → String
  | 0 => base
  | number + 1 => base ++ "." ++ toString (number + 1)

/-- The number of the first candidate from `number` on that is not in use, looking at `fuel` of
them. -/
def firstFree (used : List String) (base : String) : (fuel number : Nat) → Nat
  | 0, number => number
  | fuel + 1, number =>
    if used.contains (candidate base number) then firstFree used base fuel (number + 1)
    else number

/-- The number of the first candidate that is not in use. Among one more candidates than there are
names in use, one is free. -/
def freeNumber (builder : Builder) (base : String) : Nat :=
  firstFree builder.usedNames base builder.usedNames.length
    ((builder.nextSuffix.lookup base).getD 0)

/-- Marks a candidate as used. -/
def useName (builder : Builder) (base : String) (number : Nat) : Builder :=
  { builder with
    usedNames := candidate base number :: builder.usedNames
    nextSuffix :=
      (base, number + 1) :: builder.nextSuffix.filter fun entry => entry.1 != base }

end Builder

namespace Build

/-- The next temporary of the current function. -/
def freshName : BuildM ValueName := do
  let number := (← get).nextTemp
  modify fun builder => { builder with nextTemp := number + 1 }
  return .temp number

/-- A name that is new in the current function: `base` itself, or `base` with a number. -/
def uniqueName (base : String) : BuildM String := do
  let number := (← get).freeNumber base
  modify fun builder => builder.useName base number
  return Builder.candidate base number

end Build

end TreeLowering.Lowering
