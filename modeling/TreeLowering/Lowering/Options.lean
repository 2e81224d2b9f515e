/-
This file defines the settings of one lowering run.
-/

namespace TreeLowering.Lowering

/-- The settings of one lowering run. -/
structure Options where
  /-- The name of the module that is produced. -/
  moduleName : String
  /-- A larger aggregate is copied by a call instead of a load and a store. -/
  inlineCopyThreshold : UInt64
  /-- The routine that copies bytes: destination, source, length. -/
  copySymbol : String
deriving DecidableEq, Repr

/-- The settings of a run that asks for nothing else. -/
def Options.standard : Options := ⟨"main", 16, "memcpy"⟩

instance : Inhabited Options := ⟨.standard⟩

end TreeLowering.Lowering
