import AdvisoryGate.Config.Schema
import AdvisoryGate.Json.Text
import AdvisoryGate.Preset
import AdvisoryGate.Report

/-!
# Maintenance

The commands for those who work on the gate: write the schema of
configurations into the project, check that the file there still says the
same, and list the presets. A command works on a disk and gives the disk
behind it and a report. Only writing the schema changes the disk.

The project is found through the directory of the maintenance program,
which is a folder `xtask` of it; any other directory is the project itself.
-/

namespace AdvisoryGate.Maintenance

/-! ## Commands -/

inductive Command
  | help
  | emitSchemas
  | checkSchemas
  | printPresets
  | unknown (name : String)
  deriving DecidableEq, Repr

/-- The command that a word names. -/
def Command.ofName (name : String) : Command :=
  if name ∈ ["help", "--help", "-h"] then .help
  else if name = "emit-schemas" then .emitSchemas
  else if name ∈ ["check-schemas", "validate-schemas"] then .checkSchemas
  else if name = "print-presets" then .printPresets
  else .unknown name

/-- The command of some arguments; only the first of them counts. -/
def Command.ofArgs : List String → Command
  | [] => .help
  | name :: _ => .ofName name

/-! ## Failures -/

/-- What went wrong: the outermost message and its causes. -/
structure Failure where
  message : String
  causes : List String
  deriving DecidableEq, Repr

/-- A text whose lines but the first are moved in by some columns. -/
def hanging (columns : Nat) (text : String) : String :=
  String.ofList (text.toList.flatMap fun c =>
    if c = '\n' then '\n' :: List.replicate columns ' ' else [c])

/-- The causes, each on lines of its own, numbered if there are several. -/
def causeLines : List String → String
  | [] => ""
  | [cause] => "\n\nCaused by:\n    " ++ hanging 4 cause
  | causes => "\n\nCaused by:" ++ String.join (causes.zipIdx.map fun (cause, n) =>
      "\n    " ++ toString n ++ ": " ++ hanging 7 cause)

/-- What is written about a failure. -/
def Failure.text (f : Failure) : String := "Error: " ++ f.message ++ causeLines f.causes ++ "\n"

/-- A command that was understood, but failed for the given causes. -/
def failed (causes : List String) : Failure := ⟨"xtask failed", causes⟩

/-- A report about success. -/
def success (text : String) : Report := ⟨[.print text], 0⟩

/-- A report about a failure. -/
def failure (f : Failure) : Report := ⟨[.complain f.text], 1⟩

/-! ## The schema file -/

/-- The directory of the project, given that of the maintenance program. -/
def projectRoot (directory : String) : String :=
  if Path.name directory = "xtask" then Path.parent directory else directory

def schemaFolder (directory : String) : String := Path.join (projectRoot directory) "schemas"

def schemaFile : String := "audit-gate.config.v1.json"

def schemaPath (directory : String) : String := Path.join (schemaFolder directory) schemaFile

/-- Write the schema file, with the folders it needs. -/
def emitSchemas (d : Disk) (directory : String) : Disk × Report :=
  let path := schemaPath directory
  match d.makeDirectories (schemaFolder directory) with
  | (d, .error e) =>
    (d, failure (failed ["Failed to create schemas directory", e.message]))
  | (d, .ok ()) =>
    match d.write path Config.Schema.text.toUTF8 with
    | (d, .error e) => (d, failure (failed ["Failed to write schema to " ++ path, e.message]))
    | (d, .ok ()) => (d, success ("Wrote " ++ path ++ "\n"))

/-- What is said about a schema file that will not do, and what helps. -/
def refusal (complaint remedy : String) : Report :=
  .after [.complain (complaint ++ "\n\nRun `cargo xtask emit-schemas` to " ++ remedy ++ ".\n")]
    (failure (failed ["Schema validation failed"]))

/-- Whether a text denotes the schema, however it is written. -/
def isSchema (v : Json.Value) : Bool := v.canonical = Config.Schema.value.canonical

/-- Check the schema file. Where a text stops being JSON is the wording of the
reader of JSON; here it is only said that it does. -/
def checkSchemas (d : Disk) (directory : String) : Report :=
  let path := schemaPath directory
  if !d.holds path then refusal ("Missing schema: " ++ path) "generate"
  else
    match d.readText path with
    | .error e => failure (failed ["Failed to read " ++ path, e.message])
    | .ok text =>
      match Json.parse? text.toList with
      | none => failure (failed ["Failed to parse " ++ path, "not a JSON text"])
      | some v =>
        if isSchema v then success "Schema is up to date.\n"
        else refusal ("Schema out of date: " ++ schemaFile) "regenerate"

/-! ## The other commands -/

def helpText : String :=
  "xtask commands:\n"
    ++ "  help              Show this message\n"
    ++ "  emit-schemas      Generate the config JSON schema to schemas/\n"
    ++ "  check-schemas     Check if schemas/ matches generated output (for CI)\n"
    ++ "  print-presets     List ignore-list presets and their advisory ids\n"

/-- A preset on a line. -/
def presetLine (name : String) : String :=
  match Preset.find? name with
  | none => ""
  | some l =>
    name ++ ": " ++ (if l.isEmpty then "(empty)" else " ".intercalate l.texts) ++ "\n"

/-- Carry out a command. Without a directory the project is where we are. -/
def run (d : Disk) (directory : Option String) (c : Command) : Disk × Report :=
  let directory := directory.getD "."
  match c with
  | .help => (d, ⟨[.complain helpText], 0⟩)
  | .emitSchemas => emitSchemas d directory
  | .checkSchemas => (d, checkSchemas d directory)
  | .printPresets => (d, success (String.join (Preset.names.map presetLine)))
  | .unknown name =>
    (d, failure ⟨"unknown xtask command: " ++ name
      ++ "\n\nRun `cargo xtask help` for usage.", []⟩)

/-- Carry out what the arguments ask for. -/
def call (d : Disk) (directory : Option String) (args : List String) : Disk × Report :=
  run d directory (.ofArgs args)

end AdvisoryGate.Maintenance
