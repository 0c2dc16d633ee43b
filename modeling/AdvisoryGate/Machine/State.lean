import AdvisoryGate.Disk
import AdvisoryGate.Machine.Environment
import AdvisoryGate.Machine.Script
import AdvisoryGate.Machine.Signal
import AdvisoryGate.Machine.Utility

/-!
# The state of a shell

An `Act` is something that a shell does: it changes the state and may be
interrupted by the end of the shell. What is written is kept in the state in
order. Streams are numbers, 1 for output and 2 for errors; a redirection
changes what is behind a number, so it is settled where the text goes as
soon as it is written.

`Kernel` is what a shell needs of its machine: to run programs, and to run
texts that have become known only now. Each of them is run one level down,
so that levels bound how deep all of it goes.
-/

namespace AdvisoryGate.Machine

/-! ## Programs -/

/-- How a process ended. -/
inductive Ending
  | exited (code : Nat)
  | killed (signal : Nat)
  deriving DecidableEq, Repr

/-- The exit code that a shell gives to what came of a program. -/
def Ending.status : Ending → Nat
  | .exited code => code
  | .killed signal => 128 + signal

/-- What a program is started with. -/
structure Setting where
  environment : Environment
  /-- The directories in which it is searched for. -/
  searchPath : List String
  disk : Disk
  input : String

/-- What a program leaves. -/
structure Finish where
  written : Written
  ending : Ending
  disk : Disk
  /-- The input that it has not read. -/
  input : String

/-- What comes of a program: it cannot be started, or it runs to an end. -/
inductive Execution
  | refused (cause : SystemError)
  | done (finish : Finish)

/-! ## State -/

/-- What is behind the number of a stream. -/
inductive Sink
  /-- A stream that the shell was given, or one that catches a text. -/
  | stream (n : Nat)
  | file (path : String)
  | nothing
  deriving DecidableEq, Repr

structure State where
  /-- What the shell calls itself. -/
  name : String
  arguments : List String
  /-- The variables. -/
  bindings : Environment
  /-- The variables that programs are given. -/
  exported : List String
  /-- Whether the shell ends behind a failure. -/
  strict : Bool
  /-- The exit code of the last command. -/
  status : Nat
  /-- The exit code of the last command that stood in a word. -/
  substituted : Nat
  /-- The number of the line that is run. -/
  line : Nat
  /-- What patterns are compared with. -/
  subject : String
  /-- Whether something looks at how the command ends. -/
  tested : Bool
  /-- The number of the process. -/
  process : Nat
  disk : Disk
  input : String
  streams : List (Nat × Sink)
  /-- How many texts are being caught. -/
  captures : Nat
  written : Written

/-- The variables that a shell has unless it is given others. -/
def initialVariables : Environment :=
  [("PATH", "/usr/local/sbin:/usr/local/bin:/usr/sbin:/usr/bin:/sbin:/bin")]

/-- The state of a new shell. -/
def State.fresh (name : String) (arguments : List String) (strict : Bool) (process : Nat)
    (s : Setting) : State where
  name := name
  arguments := arguments
  bindings := s.environment
    ++ initialVariables.filter fun v => (s.environment.lookup v.1).isNone
  exported := s.environment.map (·.1)
  strict := strict
  status := 0
  substituted := 0
  line := 1
  subject := ""
  tested := false
  process := process
  disk := s.disk
  input := s.input
  streams := [(1, .stream 1), (2, .stream 2)]
  captures := 0
  written := []

/-! ## Acts -/

/-- An act is over if the shell has ended. -/
abbrev Act := ExceptT Ending (StateM State)

/-- What a shell needs of its machine. -/
structure Kernel where
  /-- The number of the next process. -/
  process : Nat
  /-- Run a program with arguments. -/
  execute : Setting → String → List String → Execution
  /-- The path of a program. -/
  locate? : Setting → String → Option String
  /-- Run the text of a script, knowing whether something looks at how it
  ends. -/
  evaluate : Bool → String → Act Unit

namespace Act

/-- Do something with a state. -/
def start {α : Type} (act : Act α) (s : State) : Except Ending α × State :=
  StateT.run (ExceptT.run act) s

def setStatus (n : Nat) : Act Unit := modify fun s => { s with status := n }

/-- The text of a text behind what is in a file. -/
def appended (d : Disk) (path text : String) : Disk :=
  match d.readBytes path with
  | .ok content => (d.write path (content ++ text.toUTF8)).1
  | .error _ => d

/-- Write to a stream; a closed one swallows what is written. -/
def emit (fd : Nat) (text : String) : Act Unit :=
  modify fun s =>
    match s.streams.lookup fd with
    | some (.stream n) => { s with written := s.written ++ [(n, text)] }
    | some (.file path) => { s with disk := appended s.disk path text }
    | some .nothing | none => s

/-- Write what a program has written. -/
def emitAll (w : Written) : Act Unit := w.forM fun (fd, text) => emit fd text

/-- Complain, with the number of the line. -/
def complain (text : String) : Act Unit := do
  let s ← get
  emit 2 (s.name ++ ": " ++ toString s.line ++ ": " ++ text ++ "\n")

/-- End the shell. -/
def finish {α : Type} (ending : Ending) : Act α := throw ending

/-- Complain and end the shell. -/
def fail {α : Type} (text : String) : Act α := do
  complain text
  finish (.exited 2)

/-- Complain and go on. -/
def reject (text : String) (status : Nat) : Act Unit := do
  complain text
  setStatus status

/-- Do something and then, even if it has been interrupted, something that
puts the state in order. -/
def ensure {α : Type} (act : Act α) (after : State → State) : Act α := fun s =>
  let (result, s) := act.start s
  (result, after s)

/-! ## Variables -/

def assign (name value : String) : Act Unit :=
  modify fun s => { s with bindings := s.bindings.set name value }

/-- Give a variable the value it had. -/
def restore (old : String × Option String) (s : State) : State :=
  match old with
  | (name, some value) => { s with bindings := s.bindings.set name value }
  | (name, none) => { s with bindings := s.bindings.unset name }

/-- What a program is given. -/
def setting : Act Setting := do
  let s ← get
  let path := (s.bindings.lookup "PATH").elim [] fun path => path.splitOn ":"
  return ⟨s.bindings.filter fun v => s.exported.contains v.1, path, s.disk, s.input⟩

/-! ## Processes -/

/-- Take up the end of a program. -/
def Finish.settle (f : Finish) : Act Ending := do
  modify fun s => { s with disk := f.disk, input := f.input }
  emitAll f.written
  return f.ending

/-- Take the status of something that has ended. -/
def bury (ending : Ending) : Act Unit := do
  match ending with
  | .killed signal =>
    match Signal.obituary? signal with
    | some words => emit 2 (words ++ "\n")
    | none => pure ()
  | .exited _ => pure ()
  setStatus ending.status

/-- How a shell ends that has done all it had to do, or was ended before. -/
def endingOf (result : Except Ending Unit) (s : State) : Ending :=
  match result with
  | .error ending => ending
  | .ok _ => .exited (s.status % 256)

/-- Do something in a process of its own: of its state only the disk, the
input and what is written remain. A signal goes to the shell itself. -/
def isolated (act : Act Unit) : Act Ending := fun s =>
  let (result, t) := act.start s
  let s := { s with disk := t.disk, input := t.input, written := t.written }
  match endingOf result t with
  | .killed signal => (.error (.killed signal), s)
  | ending => (.ok ending, s)

/-- Do something and catch what it writes to the output. -/
def capture {α : Type} (act : Act α) : Act (α × String) := do
  let old ← get
  let n := 3 + old.captures
  set { old with streams := (1, .stream n) :: old.streams, captures := old.captures + 1 }
  let result ← ensure act fun s => { s with streams := old.streams, captures := old.captures }
  let s ← get
  set { s with written := s.written.filter (·.1 ≠ n) }
  let caught := s.written.filterMap fun (m, text) => if m = n then some text else none
  return (result, String.join caught)

end Act

end AdvisoryGate.Machine
