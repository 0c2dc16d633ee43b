import AdvisoryGate.SystemError

/-!
# Outcomes of an audit

How the auditor ended, and the exit code that the gate answers with. The
gate's code is the auditor's own wherever the auditor exited; a signal `s`
gives `128 + s`, and what is neither gives 1. An auditor that could not be
started gives 127, one that could not be waited for gives 1.
-/

namespace AdvisoryGate

/-! ## How a child ended -/

/-- How a child process ended. -/
inductive ChildExit
  /-- It exited with a code. -/
  | code (n : Int)
  /-- A signal ended it. -/
  | signal (n : Int)
  /-- Neither: it was stopped or continued, or the system does not say. -/
  | unknown
  deriving DecidableEq, Repr

namespace ChildExit

/-- The exit code that stands for the way the child ended. -/
def exitCode : ChildExit → Int
  | .code n => n
  | .signal n => 128 + n
  | .unknown => 1

/-- As log records show it. -/
def display : ChildExit → String
  | .code n => "Code(" ++ toString n ++ ")"
  | .signal n => "Signal(" ++ toString n ++ ")"
  | .unknown => "Unknown"

/-- Read a raw wait status. Its low seven bits are 0 for an exit, whose code
stands in bits 8 to 15; 127 for a child that was stopped or continued; and
otherwise the number of the signal, whether or not bit 7 tells of a core. -/
def ofStatus (raw : Int) : ChildExit :=
  if raw % 128 = 0 then .code (raw / 256 % 256)
  else if raw % 128 = 127 then .unknown
  else .signal (raw % 128)

end ChildExit

/-! ## How a run ended -/

/-- Why there is no child exit to report. -/
inductive RunError
  /-- The program could not be started. -/
  | spawn (program : String) (cause : SystemError)
  /-- It was started, but its end could not be learned. -/
  | wait (program : String) (cause : SystemError)
  deriving DecidableEq, Repr

/-- What the error is reported as. -/
def RunError.message : RunError → String
  | .spawn program cause => "failed to launch `" ++ program ++ "`: " ++ cause.message
  | .wait program cause => "failed to wait for `" ++ program ++ "`: " ++ cause.message

/-- What came of running the auditor. -/
abbrev Outcome := Except RunError ChildExit

/-- The exit code for an auditor that could not be started. -/
def Outcome.spawnFailureCode : Int := 127

/-- The exit code that the gate answers with. -/
def Outcome.exitCode : Outcome → Int
  | .ok exit => exit.exitCode
  | .error (.spawn _ _) => spawnFailureCode
  | .error (.wait _ _) => 1

end AdvisoryGate
