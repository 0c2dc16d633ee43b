import AdvisoryGate.Advisory
import AdvisoryGate.Shell.Word

/-!
# Invocations

The command line that is handed to the external auditor: a program, its
leading arguments, and an ignore list that becomes one pair of flag and id
for each entry behind them.
-/

namespace AdvisoryGate

/-- A command line for the auditor. -/
structure Invocation where
  program : String
  leading : List String
  ignore : IgnoreList
  deriving DecidableEq, Repr

namespace Invocation

/-- The program that is run when none is configured. -/
def defaultProgram : String := "cargo"

/-- Its leading arguments when none are configured. -/
def defaultLeading : List String := ["audit"]

/-- The default auditor with the given ignore list. -/
def standard (ignore : IgnoreList) : Invocation :=
  ⟨defaultProgram, defaultLeading, ignore⟩

/-- All arguments: the leading ones, then the ignore flags. -/
def args (inv : Invocation) : List String := inv.leading ++ inv.ignore.arguments

/-- The invocation as one could type it into a shell. -/
def display (inv : Invocation) : String := Shell.line (inv.program :: inv.args)

end Invocation

end AdvisoryGate
