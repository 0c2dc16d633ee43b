import AdvisoryGate.Config
import AdvisoryGate.Invocation
import AdvisoryGate.Preset

/-!
# Plans

A plan is what a configuration and the command line's overrides come to:
the profile in force and the invocation to run. The profile of the command
line wins over that of the configuration; the ids of the preset come first,
then those of the configuration, then those of the command line, each once.

The rules are checked in the order schema, profile, ids of the
configuration, ids of the command line, command, and the first one that is
broken is reported.
-/

namespace AdvisoryGate

/-- What the command line says about the plan. -/
structure Overrides where
  profile : Option String := none
  ignore : List String := []
  deriving DecidableEq, Repr

/-- What is to be run. -/
structure Plan where
  profile : String
  invocation : Invocation
  deriving DecidableEq, Repr

namespace Plan

/-- The version of the configuration format that is understood. -/
def schemaName : String := "audit-gate.config.v1"

/-! ## What can be wrong -/

/-- Why a configuration does not resolve. -/
inductive ResolveError
  | unsupportedSchema (name : String)
  | unknownProfile (name : String)
  /-- An id of the configuration is blank. -/
  | blankInConfig (id : BlankId)
  /-- An id of the command line is blank. -/
  | blankOverride (id : BlankId)
  | blankCommand
  deriving DecidableEq, Repr

def ResolveError.message : ResolveError → String
  | .unsupportedSchema name =>
    "unsupported config schema: " ++ name ++ " (expected " ++ schemaName ++ ")"
  | .unknownProfile name =>
    "unknown profile: " ++ name ++ " (expected one of: "
      ++ ", ".intercalate Preset.names ++ ")"
  | .blankInConfig id => "invalid ignore entry in config: " ++ id.message
  | .blankOverride id => "invalid --ignore value: " ++ id.message
  | .blankCommand => "command must not be empty"

/-- Why a configuration text gives no plan. -/
inductive Error
  | parse (cause : Config.Error)
  | resolve (cause : ResolveError)
  deriving DecidableEq, Repr

/-- What the error is reported as, given the text that was read. -/
def Error.message (text : String) : Error → String
  | .parse cause => "parse config: " ++ cause.message text
  | .resolve cause => "resolve config: " ++ cause.message

/-! ## Resolving -/

/-- A schema, if one is named, must be the one that is understood. -/
def checkSchema : Option String → Except ResolveError Unit
  | none => .ok ()
  | some name => if name = schemaName then .ok () else .error (.unsupportedSchema name)

/-- The name of the profile in force. -/
def profileOf (cfg : Config) (o : Overrides) : String :=
  (o.profile.or cfg.profile).getD Preset.defaultName

/-- The ignore list of a profile. -/
def presetOf (profile : String) : Except ResolveError IgnoreList :=
  match Preset.find? profile with
  | some l => .ok l
  | none => .error (.unknownProfile profile)

/-- The program to run, taken as it is written. -/
def programOf : Option String → Except ResolveError String
  | none => .ok Invocation.defaultProgram
  | some command =>
    if Text.isBlank command then .error .blankCommand else .ok command

/-- The invocation that a configuration asks for, with the ids to ignore. -/
def invocationOf (cfg : Config) (ignore : IgnoreList) : Except ResolveError Invocation :=
  match cfg.command, cfg.args with
  | none, none => .ok (.standard ignore)
  | command, args =>
    (programOf command).map fun program =>
      ⟨program, args.getD Invocation.defaultLeading, ignore⟩

/-- The plan that a configuration and overrides come to. -/
def resolve (cfg : Config) (o : Overrides) : Except ResolveError Plan := do
  checkSchema cfg.schema
  let profile := profileOf cfg o
  let preset ← presetOf profile
  let listed ← (preset.extendUnique cfg.ignore).mapError .blankInConfig
  let ignore ← (listed.extendUnique o.ignore).mapError .blankOverride
  return ⟨profile, ← invocationOf cfg ignore⟩

/-- The configuration in a text. A blank text stands for an empty one,
whatever its blanks are. -/
def configOf (text : String) : Except Config.Error Config :=
  if Text.isBlank text then .ok {} else Config.parse text

/-- The plan for a configuration text. -/
def ofText (text : String) (o : Overrides) : Except Error Plan := do
  let cfg ← (configOf text).mapError .parse
  (resolve cfg o).mapError .resolve

end Plan

end AdvisoryGate
