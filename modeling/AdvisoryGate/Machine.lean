import AdvisoryGate.Gate
import AdvisoryGate.Machine.Shell

/-!
# Machines

A machine is a host on which commands can be run without a system beneath
it: a disk, a search path, a small shell and a few utilities. Programs are
found as `execvp` finds them. A name with a slash is a path; any other name
is tried in each directory of the search path, where a program that may not
be run is remembered, but does not end the search. A file is run if it is
executable and is one of the standard programs or begins with `#!` and the
path of an interpreter.

Machines serve runs in which an auditor is played by a script. They know as
much of a shell and of the utilities as such scripts use. No theorem speaks
of them: what is proved of the gate holds for every runner.

`Machine.host` is the machine as the gate sees it.
-/

namespace AdvisoryGate

structure Machine where
  disk : Disk
  /-- The directories in which programs are searched for. -/
  searchPath : List String
  /-- Whether the system itself reaps children, so that nobody learns how
  they ended. -/
  reapsChildren : Bool := false

namespace Machine

/-! ## The standard part of a disk -/

/-- The programs that are there from the start. -/
def programNames : List String := ["sh", "dash", "env"] ++ Utility.names

/-- The places of programs. -/
def programPlaces : List (List String) := [["bin"], ["usr", "bin"]]

/-- The program at a place. -/
def programAt? (place : List String) : Option String :=
  match place.getLast? with
  | some name =>
    if programPlaces.contains place.dropLast && programNames.contains name then some name else none
  | none => none

/-- What is there from the start. -/
def standardAt? (place : List String) : Option Entry :=
  if (programAt? place).isSome then some (.file "program".toUTF8 true)
  else if [[], ["tmp"], ["etc"], ["dev"], ["usr"], ["bin"], ["usr", "bin"]].contains place then
    some .directory
  else if place = ["etc", "passwd"] then
    some (.file "root:x:0:0:root:/root:/bin/bash\n".toUTF8 false)
  else if place = ["dev", "null"] then some (.file "".toUTF8 false)
  else none

/-- A disk with the standard part only. -/
def standardDisk : Disk := { get? := standardAt?, here := [] }

/-- Go on from a place by one part of a path, and make the directory from
which it goes if it is missing. -/
def enterMaking : Disk × List String → String → Disk × List String
  | (d, place), part =>
    (if (d.get? place).isNone then d.put place .directory else d,
      if part = "" || part = "." then place
      else if part = ".." then place.dropLast
      else place ++ [part])

/-- The place of a path, and the disk with the directories that lead there. -/
def reach (d : Disk) (path : String) : Disk × List String :=
  (Path.parts path).foldl enterMaking (d, if Path.isAbsolute path then [] else d.here)

/-- Put an entry at a path, and directories where they are missing. -/
def install (d : Disk) (path : String) (e : Entry) : Disk :=
  let (d, place) := reach d path
  d.put place e

/-- A disk with an empty directory in which the work is done. -/
def workDisk (directory : String) : Disk :=
  let d := install standardDisk directory .directory
  { d with here := (Path.parts directory).filter (· ≠ "") }

/-! ## Starting programs -/

/-- A blank in the first line of a script. -/
def isLineBlank (c : Char) : Bool := c = ' ' || c = '\t'

/-- The path of an interpreter ends before this character. -/
def isPathEnd (c : Char) : Bool := isLineBlank c || c = '\x00'

/-- How many bytes of a script are looked at to find its interpreter. -/
def headSize : Nat := 256

/-- The first line of a script behind `#!`, as far as it is looked at. A
file that ends within it ends with NUL; a line that is cut off has to show
at least where the path of the interpreter ends. -/
def interpreterLine? (content : ByteArray) : Option (List Char) :=
  let isWhole := content.size < headSize
  let head := (Text.lenient (content.data.toList.take headSize)).toList
  match if isWhole then head ++ ['\x00'] else head with
  | '#' :: '!' :: cs =>
    if cs.contains '\n' then some (cs.takeWhile (· ≠ '\n'))
    else if isWhole then some cs
    else if (cs.dropWhile isLineBlank).any isPathEnd then some cs.dropLast
    else none
  | _ => none

/-- The interpreter that the first line of a script names, with its
argument if there is one. Blanks around both do not count, and a NUL ends
either. -/
def interpreter? (content : ByteArray) : Option (String × Option String) := do
  let line ← interpreterLine? content
  let line := (line.reverse.dropWhile isLineBlank).reverse.dropWhile isLineBlank
  if line.isEmpty then none
  else
    let path := line.takeWhile fun c => !isPathEnd c
    let argument := match line.drop path.length with
      | [] => none
      | c :: cs =>
        if c = '\x00' then none
        else some (String.ofList ((cs.dropWhile isLineBlank).takeWhile (· ≠ '\x00')))
    some (String.ofList path, argument)

/-- Too many interpreters in a row. -/
def tooDeep : SystemError := .number 40

/-- A program that has been found: one of the standard ones or a script. -/
inductive Found
  | standard (name : String)
  | script (interpreter : String) (argument : Option String)

/-- What a path leads to, as a program. -/
def found (d : Disk) (path : String) : Except SystemError Found := do
  let place ← d.placeOf path
  match ← d.find path with
  | .directory => .error .denied
  | .file content executable =>
    if !executable then .error .denied
    else
      match programAt? place, interpreter? content with
      | some name, _ => .ok (.standard name)
      | none, some (interpreter, argument) => .ok (.script interpreter argument)
      | none, none => .error .notExecutable

/-- A program that ends without having read anything. -/
def ended (s : Setting) (written : Written) (code : Nat) : Execution :=
  .done ⟨written, .exited code, s.disk, s.input⟩

/-- Run another program in a changed environment, or show the environment
if there is no program. No options are known. -/
def runWithin (k : Kernel) (s : Setting) (name : String) (args : List String) : Execution :=
  match Utility.options [] (args.take 1) with
  | .error fault =>
    ended s [(2, name ++ ": " ++ fault.message ++ "\n" ++ Utility.tryHelp name)] 125
  | .ok _ =>
    match Environment.ofArguments s.environment args with
    | (e, []) => ended s [(1, e.lines)] 0
    | (e, program :: args) =>
      match k.execute ⟨e, e.searchPath, s.disk, s.input⟩ program args with
      | .done finish => .done finish
      | .refused cause =>
        ended s [(2, Utility.fileMessage name ("'" ++ program ++ "'") cause)]
          (if cause = .noEntry then 127 else 126)

/-- Run one of the standard programs. -/
def runStandard (k : Kernel) (s : Setting) (program name : String) (args : List String) :
    Execution :=
  match Utility.run? s.disk name program args s.input with
  | some (written, code) =>
    .done ⟨written, .exited code, s.disk,
      if Utility.readsInput program args then "" else s.input⟩
  | none =>
    if program = "env" then runWithin k s name args else .done (Shell.start k s name args)

/-- Run the program at a path; `name` is what it is told that it is called.
A script has its interpreter run instead, with the path of the script as
the first argument. -/
def runAt (k : Kernel) (s : Setting) : Nat → String → String → List String → Execution
  | 0, _, _, _ => .refused tooDeep
  | n + 1, path, name, args =>
    match found s.disk path with
    | .error e => .refused e
    | .ok (.standard program) => runStandard k s program name args
    | .ok (.script interpreter argument) =>
      runAt k s n interpreter interpreter (argument.toList ++ path :: args)

/-- How many interpreters there can be in a row. -/
def maxInterpreters : Nat := 5

/-- Try paths in turn. -/
def search (attempt : String → Execution) (wasDenied : Bool) : List String → Execution
  | [] => .refused (if wasDenied then .denied else .noEntry)
  | path :: paths =>
    match attempt path with
    | .done finish => .done finish
    | .refused e =>
      if e = .denied then search attempt true paths
      else if e = .noEntry ∨ e = .notDirectory then search attempt wasDenied paths
      else .refused e

/-- Find a program and run it. -/
def launch (k : Kernel) (s : Setting) (program : String) (args : List String) : Execution :=
  let attempt (path : String) := runAt k s maxInterpreters path program args
  if program = "" then .refused .noEntry
  else if program.toList.contains '/' then attempt program
  else if Disk.maxName < program.utf8ByteSize then .refused .nameTooLong
  else search attempt false (s.searchPath.map fun directory => Path.join directory program)

/-- The file that a program is searched for leads to. -/
def locate? (s : Setting) (program : String) : Option String :=
  let isFile (path : String) : Bool :=
    match s.disk.find path with
    | .ok (.file _ _) => true
    | _ => false
  if program.toList.contains '/' then if isFile program then some program else none
  else (s.searchPath.map fun directory => Path.join directory program).find? isFile

/-- What a shell on a machine can do, with shells nested up to a depth. -/
def kernel : Nat → Kernel
  | 0 =>
    { process := 1000
      execute := fun _ _ _ => .refused tooDeep
      locate? := fun _ _ => none
      evaluate := fun _ _ => Act.fail "Maximum function recursion depth reached" }
  | n + 1 =>
    let k := kernel n
    { process := k.process + 2
      execute := launch k
      locate? := locate?
      evaluate := Shell.evaluate k }

/-- How deep shells can be nested. -/
def maxNesting : Nat := 200

/-! ## As a host -/

/-- The longest argument, in bytes. -/
def maxArgument : Nat := 131071

/-- Run a command with empty input. -/
def execute (m : Machine) (program : String) (args : List String) : Execution :=
  if (program :: args).any fun s => s.toList.contains '\x00' then .refused .holdsNul
  else if args.any fun s => maxArgument < s.utf8ByteSize then .refused .argumentTooLong
  else
    let path := [("PATH", ":".intercalate m.searchPath)]
    (kernel maxNesting).execute ⟨path, m.searchPath, m.disk, ""⟩ program args

/-- The text that was written to a stream. -/
def textOf (stream : Nat) (w : Written) : String :=
  String.join (w.filterMap fun (n, s) => if n = stream then some s else none)

def exitOf : Ending → ChildExit
  | .exited code => .code code
  | .killed signal => .signal signal

/-- What comes of running a command on the machine. -/
def run (m : Machine) : Runner := fun program args =>
  match m.execute program args with
  | .refused cause => .notStarted cause
  | .done finish =>
    let out := textOf 1 finish.written
    let err := textOf 2 finish.written
    if m.reapsChildren then .lost out err .noChild else .ended out err (exitOf finish.ending)

def host (m : Machine) : Host := ⟨m.disk, m.run, CommandLine.plainAdvice⟩

end Machine

end AdvisoryGate
