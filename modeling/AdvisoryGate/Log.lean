/-!
# Log records

What the gate tells about its own doings, one line for each record. The
count of verbosity flags decides which records are shown: warnings always,
information from one flag on, and all of them from two on.
-/

namespace AdvisoryGate.Log

/-- How much a record matters. -/
inductive Level
  | warn
  | info
  | debug
  deriving DecidableEq, Repr

/-- The name of a level, in five columns. -/
def Level.label : Level → String
  | .warn => " WARN"
  | .info => " INFO"
  | .debug => "DEBUG"

/-- The least count of verbosity flags at which a level is shown. -/
def Level.threshold : Level → Nat
  | .warn => 0
  | .info => 1
  | .debug => 2

/-- One record: a message, and named values behind it. -/
structure Record where
  level : Level
  message : String
  fields : List (String × String)
  deriving DecidableEq, Repr

namespace Record

def warn (message : String) (fields : List (String × String)) : Record := ⟨.warn, message, fields⟩
def info (message : String) (fields : List (String × String)) : Record := ⟨.info, message, fields⟩
def debug (message : String) (fields : List (String × String)) : Record := ⟨.debug, message, fields⟩

/-- Whether a record is shown at a count of verbosity flags. -/
def isShown (verbosity : Nat) (r : Record) : Bool := r.level.threshold ≤ verbosity

/-- The record as a line. Values stand as they are, so a line feed in one
of them breaks the line. -/
def line (r : Record) : String :=
  r.level.label ++ " " ++ r.message
    ++ String.join (r.fields.map fun (name, value) => " " ++ name ++ "=" ++ value) ++ "\n"

end Record

end AdvisoryGate.Log
