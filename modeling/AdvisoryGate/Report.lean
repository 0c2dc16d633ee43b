import AdvisoryGate.Disk
import AdvisoryGate.Log
import AdvisoryGate.Outcome

/-!
# Hosts and reports

What a program of this library is given and what it answers. A `Host` holds
a disk, says what comes of running a command, and has the wording that is
not the gate's own. A `Report` tells what
happened, in order, and the exit code; the texts of the two standard
streams, the log records and the commands that were run are read off it.
-/

namespace AdvisoryGate

/-! ## Hosts -/

/-- What comes of running a command. -/
inductive Child
  /-- It could not be started. -/
  | notStarted (cause : SystemError)
  /-- It ran, but how it ended could not be learned. -/
  | lost (out err : String) (cause : SystemError)
  | ended (out err : String) (exit : ChildExit)
  deriving DecidableEq, Repr

/-- What the child wrote to its standard output. -/
def Child.out : Child → String
  | .notStarted _ => ""
  | .lost out _ _ => out
  | .ended out _ _ => out

/-- What the child wrote to its standard error. -/
def Child.err : Child → String
  | .notStarted _ => ""
  | .lost _ err _ => err
  | .ended _ err _ => err

/-- How running the program ended. -/
def Child.outcome (program : String) : Child → Outcome
  | .notStarted cause => .error (.spawn program cause)
  | .lost _ _ cause => .error (.wait program cause)
  | .ended _ _ exit => .ok exit

/-- What comes of running a program with arguments. -/
abbrev Runner := String → List String → Child

/-- What the gate runs on. -/
structure Host where
  disk : Disk
  run : Runner
  /-- What the parser of command lines writes below its message about words
  that are not understood, under a name of the program: tips, a line on usage
  and where to find help. It is no part of this library. -/
  advice : String → List String → String

/-! ## Reports -/

/-- What can happen while the gate works. -/
inductive Event
  | log (r : Log.Record)
  /-- The gate writes to its standard output. -/
  | print (text : String)
  /-- The gate writes to its standard error. -/
  | complain (text : String)
  /-- A command has been run; its streams are those of the gate. -/
  | ran (program : String) (args : List String) (child : Child)
  deriving DecidableEq, Repr

namespace Event

def out : Event → String
  | .print text => text
  | .ran _ _ child => child.out
  | _ => ""

def err : Event → String
  | .log r => r.line
  | .complain text => text
  | .ran _ _ child => child.err
  | .print _ => ""

def record? : Event → Option Log.Record
  | .log r => some r
  | _ => none

def call? : Event → Option (String × List String)
  | .ran program args _ => some (program, args)
  | _ => none

/-- Whether the event is seen at a verbosity. Only records can be hidden. -/
def isShown (verbosity : Nat) : Event → Bool
  | .log r => r.isShown verbosity
  | _ => true

end Event

/-- What came of a call of the gate. -/
structure Report where
  /-- What happened, in order. -/
  events : List Event
  exitCode : Int
  deriving DecidableEq, Repr

namespace Report

def stdout (r : Report) : String := String.join (r.events.map (·.out))

def stderr (r : Report) : String := String.join (r.events.map (·.err))

/-- The log records, in order. -/
def records (r : Report) : List Log.Record := r.events.filterMap (·.record?)

/-- The commands that were run, with their arguments. -/
def calls (r : Report) : List (String × List String) := r.events.filterMap (·.call?)

/-- The report as it is seen at a verbosity. -/
def shownAt (verbosity : Nat) (r : Report) : Report :=
  { r with events := r.events.filter (·.isShown verbosity) }

/-- The report with something that happened before it. -/
def after (events : List Event) (r : Report) : Report :=
  { r with events := events ++ r.events }

end Report

end AdvisoryGate
