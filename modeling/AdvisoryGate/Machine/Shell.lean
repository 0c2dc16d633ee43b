import AdvisoryGate.Machine.BuiltIn

/-!
# The shell

What a script does on a machine: redirections, commands and the ways in
which commands are put together. `Shell.start` runs a shell with arguments
as any other program is run.
-/

namespace AdvisoryGate.Machine

namespace Shell

open Act

/-! ## Redirections -/

/-- A redirection whose words have been expanded. -/
inductive Change
  | copy (fd target : Nat)
  | close (fd : Nat)
  | output (fd : Nat) (path : String) (behind : Bool)
  | input (path : String)
  | here (text : String)
  deriving DecidableEq, Repr

def Change.isInput : Change → Bool
  | .input _ | .here _ => true
  | _ => false

def changeOf (k : Kernel) : Redirection → Act Change
  | .copy fd target => return .copy fd target
  | .close fd => return .close fd
  | .output fd w behind => return .output fd (← text k w) behind
  | .input w => return .input (← text k w)
  | .here w => return .here (← text k w)

def changesOf (k : Kernel) : List Redirection → Act (List Change)
  | [] => return []
  | r :: rs => do
    let c ← changeOf k r
    return c :: (← changesOf k rs)

/-- The words for a file that cannot be opened. -/
def openWords (missing : String) (e : SystemError) : String :=
  if e = .noEntry || e = .notDirectory then missing else Utility.words e

/-- Have a stream go somewhere. -/
def connect (fd : Nat) (sink : Sink) : Act Unit :=
  modify fun s => { s with streams := (fd, sink) :: s.streams.filter (·.1 ≠ fd) }

/-- Make a change, or find that it cannot be made. -/
def change (c : Change) : Act Unit := do
  let s ← get
  match c with
  | .copy fd target =>
    match s.streams.lookup target with
    | some sink => connect fd sink
    | none => if target ≠ 0 then fail (toString target ++ ": Bad file descriptor")
  | .close fd => set { s with streams := s.streams.filter (·.1 ≠ fd) }
  | .here text => set { s with input := text }
  | .input path =>
    match Utility.operandText s.disk s.input path with
    | .ok text => set { s with input := text }
    | .error e =>
      if e = .isDirectory then set { s with input := "" }
      else fail ("cannot open " ++ path ++ ": " ++ openWords "No such file" e)
  | .output fd path behind =>
    match path, s.streams.lookup 1, s.streams.lookup 2 with
    | "/dev/null", _, _ => connect fd .nothing
    | "/dev/stdout", some sink, _ | "/dev/stderr", _, some sink => connect fd sink
    | _, _, _ =>
      let old := if behind then (s.disk.readBytes path).toOption.getD "".toUTF8 else "".toUTF8
      match s.disk.write path old with
      | (disk, .ok ()) => do
        set { s with disk := disk }
        connect fd (.file path)
      | (_, .error e) =>
        fail ("cannot create " ++ path ++ ": " ++ openWords "Directory nonexistent" e)

/-- Make changes, and say whether they could be made. -/
def changed (cs : List Change) : Act Bool :=
  tryCatch (do
    cs.forM change
    return true)
    fun _ => return false

/-- Put the streams back, and the input if it was changed. -/
def undo (cs : List Change) (old s : State) : State :=
  { s with streams := old.streams, input := if cs.any Change.isInput then old.input else s.input }

/-- Do something under redirections. -/
def redirected (k : Kernel) (rs : List Redirection) (act : Act Unit) : Act Unit := do
  let cs ← changesOf k rs
  let old ← get
  ensure (do if ← changed cs then act else setStatus 2) (undo cs old)

/-! ## Programs -/

/-- Whether a file without an interpreter is a script all the same. -/
def isScript (content : ByteArray) : Bool :=
  !(content.data.toList.take 128).any fun b => b = 0 || b = 0x7f

/-- Run a program. A file that no interpreter is named for is run as a
script if it can be one. -/
def run? (k : Kernel) (name : String) (args : List String) : Act (Except SystemError Ending) := do
  let start ← setting
  let settled (finish : Finish) : Act (Except SystemError Ending) :=
    return .ok (← Finish.settle finish)
  match k.execute start name args with
  | .done finish => settled finish
  | .refused cause =>
    match k.locate? start name with
    | some path =>
      if cause = .notExecutable && ((start.disk.readBytes path).map isScript).toOption = some true
      then
        match k.execute start "/bin/sh" (path :: args) with
        | .done finish => settled finish
        | .refused cause => return .error cause
      else return .error cause
    | none => return .error cause

/-- Complain about a program that cannot be run. -/
def refuse (command : String) (wasSought : Bool) (name : String) (cause : SystemError) :
    Act Unit :=
  reject (command ++ name ++ ": " ++ openWords "not found" cause)
    (if wasSought || [.noEntry, .notDirectory, .nameTooLong, .number 40].contains cause then 127
      else 126)

/-- Whether a program has been looked for in vain. -/
def isSoughtInVain (k : Kernel) (name : String) : Act Bool := do
  if name.toList.contains '/' then return false
  else return (k.locate? (← setting) name).isNone

def external (k : Kernel) (name : String) (args : List String) : Act Unit := do
  match ← run? k name args with
  | .ok ending => bury ending
  | .error cause => refuse "" (← isSoughtInVain k name) name cause

/-- Have a program take the place of the shell. -/
def replace (k : Kernel) (name : String) (args : List String) : Act Unit := do
  match ← run? k name args with
  | .ok ending => finish ending
  | .error cause =>
    refuse "exec: " (← isSoughtInVain k name) name cause
    finish (.exited (← get).status)

/-! ## Simple commands -/

/-- The assignments that words begin with, and the words behind them. -/
def splitAssignments : List Word → List (String × Word) × List Word
  | [] => ([], [])
  | w :: ws =>
    match Word.assignment? w with
    | some a =>
      let (as, rest) := splitAssignments ws
      (a :: as, rest)
    | none => ([], w :: ws)

/-- The values of assignments; where the shell is changed by them, each can
see those before it. -/
def valuesOf (k : Kernel) (isLasting : Bool) :
    List (String × Word) → Act (List (String × String))
  | [] => return []
  | (name, w) :: rest => do
    let value ← text k w
    if isLasting then assign name value
    return (name, value) :: (← valuesOf k isLasting rest)

/-- Do something with variables that programs are given. -/
def withVariables (values : List (String × String)) (act : Act Unit) : Act Unit := do
  let old ← get
  values.forM fun (name, value) => assign name value
  modify fun s => { s with exported := values.map (·.1) ++ s.exported }
  ensure act fun s =>
    values.foldl (fun s (name, _) => restore (name, old.bindings.lookup name) s)
      { s with exported := if values.isEmpty then s.exported else old.exported }

/-- Run a command by its name. -/
def perform (k : Kernel) (name : String) (args : List String) : Act Unit := do
  if name = "exec" then
    match args with
    | [] => setStatus 0
    | program :: args => replace k program args
  else if BuiltIn.specialNames.contains name then BuiltIn.special k name args
  else
    match BuiltIn.plain? (← get) name args with
    | some act => act
    | none => external k name args

/-- Run a simple command. Without a name it only assigns, and the exit code
is that of the last command that stood in a word. -/
def simple (k : Kernel) (ws : List Word) (rs : List Redirection) : Act Unit := do
  modify fun s => { s with substituted := 0 }
  let (as, ws) := splitAssignments ws
  let words ← fieldsOf k ws
  let cs ← changesOf k rs
  let old ← get
  let isSpecial := (words.head?.map BuiltIn.specialNames.contains).getD false
  let values ← valuesOf k (isSpecial || words.isEmpty) as
  let run : Act Unit := do
    if !(← changed cs) then
      if isSpecial then finish (.exited 2) else setStatus 2
    else
      match words with
      | [] => modify fun s => { s with status := s.substituted }
      | name :: args => withVariables (if isSpecial then [] else values) (perform k name args)
  if words = ["exec"] then run else ensure run (undo cs old)

/-! ## Compound commands -/

/-- End a strict shell behind a failure, unless the failure is tested. -/
def checked (tested : Bool) (act : Act Unit) : Act Unit := do
  act
  let s ← get
  if s.strict && !tested && s.status ≠ 0 then finish (.exited (s.status % 256))

/-- Run two commands, the output of the first being the input of the second. -/
def piped (first second : Act Unit) : Act Unit := do
  let (_, text) ← capture (isolated first)
  let old ← get
  set { old with input := text }
  let ending ← ensure (isolated second) fun s => { s with input := old.input }
  setStatus ending.status

/-- Run a body for each item. -/
def forEach (name : String) (body : Act Unit) : List String → Act Unit
  | [] => pure ()
  | item :: items => do
    assign name item
    body
    forEach name body items

/-- Run a body as long as a test ends as wanted, but only so often. The
status behind the loop is that of the last body. -/
def asLongAs (succeeds : Bool) (test body : Act Unit) : Nat → Nat → Act Unit
  | 0, status => setStatus status
  | n + 1, status => do
    test
    if decide ((← get).status = 0) = succeeds then
      body
      asLongAs succeeds test body n (← get).status
    else setStatus status

/-- How often the body of a loop can be run. -/
def maxTurns : Nat := 100000

/-- Whether one of the patterns matches the subject. -/
def matchesAny (k : Kernel) : List Word → Act Bool
  | [] => return false
  | w :: ws => do
    let p ← pattern k w
    if p.isMatch (← get).subject.toList then return true else matchesAny k ws

/-- Run a script; `tested` says whether something looks at how it ends. -/
def run (k : Kernel) (tested : Bool) : Script → Act Unit
  | .nothing => pure ()
  | .simple line ws rs => do
    modify fun s => { s with line := line, tested := tested }
    checked tested (simple k ws rs)
  | .seq a b => do
    run k tested a
    run k tested b
  | .both a b => do
    run k true a
    if (← get).status = 0 then run k tested b
  | .either a b => do
    run k true a
    if (← get).status ≠ 0 then run k tested b
  | .pipe a b => checked tested (piped (run k tested a) (run k tested b))
  | .negate a => do
    run k true a
    setStatus (if (← get).status = 0 then 1 else 0)
  | .choice test yes no => do
    run k true test
    if (← get).status = 0 then run k tested yes
    else
      setStatus 0
      run k tested no
  | .each name items body => do
    let items ← match items with
      | some ws => fieldsOf k ws
      | none => pure (← get).arguments
    setStatus 0
    forEach name (run k tested body) items
  | .loop succeeds test body =>
    asLongAs succeeds (run k true test) (run k tested body) maxTurns 0
  | .select subject clauses => do
    let subject ← text k subject
    modify fun s => { s with subject := subject, status := 0 }
    run k tested clauses
  | .clause patterns body others => do
    if ← matchesAny k patterns then run k tested body else run k tested others
  | .group body rs => if rs.isEmpty then run k tested body else redirected k rs (run k tested body)
  | .subshell body rs => checked tested do
    setStatus (← isolated (redirected k rs (run k tested body))).status

/-! ## Texts -/

/-- Run the text of a script up to the line that is no command. -/
def evaluate (k : Kernel) (tested : Bool) (text : String) : Act Unit := do
  let (scripts, fault) := Script.ofText text
  scripts.forM (run k tested)
  match fault with
  | some (fault, line) =>
    modify fun s => { s with line := line }
    fail ("Syntax error: " ++ fault.message)
  | none => pure ()

/-! ## A whole shell -/

/-- What a shell leaves. -/
def finishOf (act : Act Unit) (s : State) : Finish :=
  let (result, s) := act.start s
  ⟨s.written.filter fun (n, _) => n = 1 || n = 2, endingOf result s, s.disk, s.input⟩

/-- A shell that complains about how it was called. -/
def misuse (start : Setting) (name text : String) : Finish :=
  ⟨[(2, name ++ ": 0: " ++ text ++ "\n")], .exited 2, start.disk, start.input⟩

/-- Run a shell with its arguments: options, then with `-c` a text, else
the path of a script, and then the arguments of the script. Without a script
the shell reads its input. -/
def start (k : Kernel) (s : Setting) (name : String) (args : List String) : Finish :=
  let s := { s with environment := s.environment.set "PWD" (Utility.here s.disk) }
  match BuiltIn.choose ['c', 'e'] false args with
  | .error c => misuse s name ("Illegal option -" ++ toString c)
  | .ok c =>
    let go (name : String) (args : List String) (text : String) (s : Setting) : Finish :=
      finishOf (k.evaluate false text) (State.fresh name args c.strict k.process s)
    match c.hasText, c.rest with
    | true, [] => misuse s name "-c requires an argument"
    | true, [text] => go name [] text s
    | true, text :: zero :: args => go zero args text s
    | false, [] => go name [] s.input { s with input := "" }
    | false, path :: args =>
      match Utility.read s.disk path with
      | .ok text => go path args text s
      | .error e =>
        if e = .isDirectory then go path args "" s
        else misuse s name ("cannot open " ++ path ++ ": " ++ openWords "No such file" e)

end Shell

end AdvisoryGate.Machine
