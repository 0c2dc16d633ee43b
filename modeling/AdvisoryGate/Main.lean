import AdvisoryGate.Machine
import AdvisoryGate.Maintenance

/-!
# The program

The command line of the gate and of its maintenance commands. The name
under which the program is called says which of them is meant. Here files
are read and written and texts are printed; what is to be done is decided
by `Gate.call` and `Maintenance.call`. This program starts no other
programs, so a run that is not a dry run ends as one whose auditor could
not be started.
-/

namespace AdvisoryGate.Program

/-- Why the system refused something. -/
def causeOf : IO.Error → SystemError
  | .alreadyExists _ code _ | .otherError code _ | .resourceBusy code _
  | .resourceVanished code _ | .unsupportedOperation code _ | .hardwareFault code _
  | .unsatisfiedConstraints code _ | .illegalOperation code _ | .protocolError code _
  | .timeExpired code _ | .interrupted _ code _ | .noFileOrDirectory _ code _
  | .invalidArgument _ code _ | .permissionDenied _ code _ | .resourceExhausted _ code _
  | .inappropriateType _ code _ | .noSuchThing _ code _ => .number code.toNat
  | .unexpectedEof => .text "unexpected end of file"
  | .userError message => .text message

/-- Why something could not be done, if it could not. -/
def refusalOf (act : IO Unit) : IO (Option SystemError) := do
  try
    act
    return none
  catch e => return some (causeOf e)

/-- The disk on which an access to a place is refused. -/
def withRefusal (d : Disk) (access : Access) (place : List String) (cause : SystemError) : Disk :=
  { d with obstacles.refusal? := fun a p =>
      if a = access ∧ p = place then some cause else d.obstacles.refusal? a p }

/-- The disk on which no directory can be made. -/
def withoutMaking (d : Disk) (cause : SystemError) : Disk :=
  { d with obstacles.refusal? := fun a p =>
      if a = .make then some cause else d.obstacles.refusal? a p }

/-- The disk with what stands at a path, or with what keeps us from it. What
cannot be read need not be missing. -/
def withPath (d : Disk) (path : String) : IO Disk := do
  try
    return Machine.install d path (.file (← IO.FS.readBinFile path) false)
  catch e =>
    let cause := causeOf e
    if cause = .isDirectory then return Machine.install d path .directory
    else if cause = .noEntry then return d
    else
      let (reached, place) := Machine.reach d path
      match ← refusalOf (discard (IO.FS.realPath path)) with
      | some _ => return withRefusal reached .look place cause
      | none => return withRefusal (reached.put place (.file .empty false)) .read place cause

/-- A disk with what stands at a path. -/
def diskWith (path : String) : IO Disk := do
  withPath (Machine.workDisk (← IO.currentDir).toString) path

/-- Write the texts of a report and give its exit code. -/
def tell (r : Report) : IO UInt32 := do
  let output ← IO.getStdout
  let errors ← IO.getStderr
  for event in r.events do
    output.putStr event.out
    errors.putStr event.err
  output.flush
  return r.exitCode.toNat.toUInt32

/-- Nothing can be started. -/
def refuseAll : Runner := fun _ _ => .notStarted (.text "programs cannot be started from here")

/-- The configuration file that a command line will ask for. -/
def configPath (guise : Gate.Guise) (args : List String) : String :=
  match CommandLine.ofArgs? (guise.arguments args) with
  | .ok c => c.config.getD Gate.defaultConfigPath
  | .error _ => Gate.defaultConfigPath

def runGate (guise : Gate.Guise) (args : List String) : IO UInt32 := do
  let disk ← diskWith (configPath guise args)
  tell (Gate.call guise ⟨disk, refuseAll, CommandLine.plainAdvice⟩ args)

/-- Write the schema file. What the system refuses is on the disk that is
given back. -/
def writeSchema (d : Disk) (root : String) : IO Disk := do
  let path := Maintenance.schemaPath root
  match ← refusalOf (IO.FS.createDirAll (Maintenance.schemaFolder root)) with
  | some cause => return withoutMaking d cause
  | none =>
    match ← refusalOf (IO.FS.writeFile path Config.Schema.text) with
    | some cause => return withRefusal d .write (Machine.reach d path).2 cause
    | none => return d

def runMaintenance (args : List String) : IO UInt32 := do
  let directory ← IO.getEnv "CARGO_MANIFEST_DIR"
  let root := directory.getD "."
  let mut disk ← diskWith (Maintenance.schemaPath root)
  if Maintenance.Command.ofArgs args = .emitSchemas then
    disk ← writeSchema disk root
  tell (Maintenance.call disk directory args).2

end AdvisoryGate.Program

def main (args : List String) : IO UInt32 := do
  let name := AdvisoryGate.Path.name (← IO.appPath).toString
  if name = "xtask" then AdvisoryGate.Program.runMaintenance args
  else if name = "cargo-audit-gate" then AdvisoryGate.Program.runGate .subcommand args
  else AdvisoryGate.Program.runGate .standalone args
