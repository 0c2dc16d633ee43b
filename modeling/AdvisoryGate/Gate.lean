import AdvisoryGate.CommandLine.Help
import AdvisoryGate.Plan
import AdvisoryGate.Report

/-!
# The gate

One call of the gate: read the command line, find the configuration, make
the plan, then show it or have the auditor run. The gate does not touch the
system itself: it works on a `Host`, and its answer is a `Report`.

Log records are events like any other. The whole story is told first, and
`Report.shownAt` then drops the records that the verbosity does not show,
so verbosity cannot bear on anything else.
-/

namespace AdvisoryGate

namespace Gate

/-! ## The configuration -/

/-- Where the configuration is looked for if no path is given. -/
def defaultConfigPath : String := "audit-gate.toml"

/-- The exit code for a configuration that gives no plan. -/
def configErrorCode : Int := 2

/-- The exit code for a command line that is not understood. -/
def usageErrorCode : Int := 2

/-- Why there is no plan. -/
inductive Error
  | read (path : String) (cause : SystemError)
  /-- The text was read, but it gives no plan. -/
  | plan (text : String) (cause : Plan.Error)
  deriving DecidableEq, Repr

def Error.message : Error → String
  | .read path cause => "read config: " ++ path ++ ": " ++ cause.message
  | .plan text cause => cause.message text

/-- An error of the gate itself, as it is written to standard error. -/
def complaint (message : String) : Event := .complain ("audit-gate error: " ++ message ++ "\n")

/-- Read the configuration at a path. -/
def readConfig (d : Disk) (path : String) : List Event × Except Error String :=
  match d.readText path with
  | .ok text => ([.log (.info "loaded config" [("path", path)])], .ok text)
  | .error e => ([], .error (.read path e))

/-- The text of the configuration. Only the default path may lead nowhere;
the empty text stands for what is not there. -/
def configText (d : Disk) : Option String → List Event × Except Error String
  | some path => readConfig d path
  | none =>
    if d.holds defaultConfigPath then readConfig d defaultConfigPath
    else
      ([.log (.debug "no config file, using built-in defaults" [("path", defaultConfigPath)])],
        .ok "")

/-- What a command line says about the plan. -/
def overrides (c : CommandLine) : Overrides := ⟨c.profile, c.ignore⟩

/-- The plan for a command line. -/
def plan (d : Disk) (c : CommandLine) : List Event × Except Error Plan :=
  match configText d c.config with
  | (events, .error e) => (events, .error e)
  | (events, .ok text) =>
    match Plan.ofText text (overrides c) with
    | .error e => (events, .error (.plan text e))
    | .ok p =>
      (events ++ [.log (.debug "resolved ignore list"
        [("profile", p.profile), ("ignored", toString p.invocation.ignore.length)])], .ok p)

/-! ## The run -/

/-- What is told about the end of a run. -/
def aftermath (program : String) : Outcome → List Event
  | .ok exit => [.log (.debug "auditor finished" [("exit", exit.display)])]
  | .error e =>
    [.log (.warn "auditor could not be run" [("program", Text.quoted program)]),
      complaint e.message]

/-- Have the auditor run. -/
def audit (run : Runner) (inv : Invocation) : Report :=
  let child := run inv.program inv.args
  let outcome := child.outcome inv.program
  ⟨.log (.info "running auditor" [("command", inv.display)]) :: .ran inv.program inv.args child
    :: aftermath inv.program outcome, outcome.exitCode⟩

/-- Show the plan instead of running it. -/
def preview (inv : Invocation) : Report := ⟨[.print (inv.display ++ "\n")], 0⟩

/-- The whole story of a call with an understood command line. -/
def story (host : Host) (c : CommandLine) : Report :=
  match plan host.disk c with
  | (events, .error e) => ⟨events ++ [complaint e.message], configErrorCode⟩
  | (events, .ok p) =>
    .after events (if c.dryRun then preview p.invocation else audit host.run p.invocation)

/-- A call with an understood command line, as it is seen. -/
def run (host : Host) (c : CommandLine) : Report := (story host c).shownAt c.verbosity

/-! ## Names of the gate -/

/-- The gate can be called on its own and as a subcommand of `cargo`. -/
inductive Guise
  | standalone
  | subcommand
  deriving DecidableEq, Repr

/-- The name of the program. -/
def Guise.name : Guise → String
  | .standalone => "audit-gate"
  | .subcommand => "cargo-audit-gate"

/-- The arguments that are meant for the gate. As a subcommand it is given
its own name as the first argument, which is dropped once. -/
def Guise.arguments : Guise → List String → List String
  | .subcommand, "audit-gate" :: args => args
  | _, args => args

/-- One call of the gate. -/
def call (guise : Guise) (host : Host) (args : List String) : Report :=
  match CommandLine.ofArgs? (guise.arguments args) with
  | .error (.notice n) => ⟨[.print (n.text guise.name)], 0⟩
  | .error (.usage e) =>
    ⟨[.complain (e.report (host.advice guise.name (guise.arguments args)))], usageErrorCode⟩
  | .ok c => run host c

end Gate

end AdvisoryGate
