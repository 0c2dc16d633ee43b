import AdvisoryGate.Text.Control

/-!
# Command lines

The arguments of the gate: `--config`, `--profile` and `--ignore` take a
value, behind `=` or as the next word; `--dry-run`, `-v`/`--verbose`,
`-h`/`--help` and `-V`/`--version` take none. One-letter flags may stand
together behind one dash. There are no positional arguments.

A value in a word of its own may not begin with a dash, unless it is a lone
dash. An option whose value stands in a word of its own is *held* until the
next flag is read or the line ends; only then it is seen to lack its value
or to be repeated, so what is wrong with the words in between is reported
first. `CommandLine.Progress` carries what is held.
-/

namespace AdvisoryGate

/-- What a command line says. -/
structure CommandLine where
  /-- Path of the configuration file. -/
  config : Option String := none
  profile : Option String := none
  /-- Further ids to ignore, in order. -/
  ignore : List String := []
  dryRun : Bool := false
  /-- How often more detail was asked for, up to `maxVerbosity`. -/
  verbosity : Nat := 0
  deriving DecidableEq, Repr

namespace CommandLine

/-- The count of flags for more detail stays here once it has come to it. -/
def maxVerbosity : Nat := 255

/-! ## Settings -/

/-- An option with a value. -/
inductive Valued
  | config
  | profile
  | ignore
  deriving DecidableEq, Repr

/-- A flag without a value. -/
inductive Switch
  | dryRun
  | verbose
  | help
  | version
  deriving DecidableEq, Repr

inductive Setting
  | valued (v : Valued)
  | switch (s : Switch)
  deriving DecidableEq, Repr

/-- The setting with a long name. Names are not abbreviated. -/
def Setting.ofName? : String → Option Setting
  | "config" => some (.valued .config)
  | "profile" => some (.valued .profile)
  | "ignore" => some (.valued .ignore)
  | "dry-run" => some (.switch .dryRun)
  | "verbose" => some (.switch .verbose)
  | "help" => some (.switch .help)
  | "version" => some (.switch .version)
  | _ => none

/-- The flag with a letter. -/
def Switch.ofLetter? : Char → Option Switch
  | 'v' => some .verbose
  | 'h' => some .help
  | 'V' => some .version
  | _ => none

/-- How messages write a setting. -/
def Setting.display : Setting → String
  | .valued .config => "--config <CONFIG>"
  | .valued .profile => "--profile <PROFILE>"
  | .valued .ignore => "--ignore <ADVISORY_ID>"
  | .switch .dryRun => "--dry-run"
  | .switch .verbose => "--verbose..."
  | .switch .help => "--help"
  | .switch .version => "--version"

/-! ## What ends the reading early -/

/-- What the gate can be asked to tell about itself. -/
inductive Notice
  /-- How to use it, in brief or in full. -/
  | help (full : Bool)
  | version
  deriving DecidableEq, Repr

/-- What is wrong with a command line. -/
inductive UsageError
  /-- A word that is neither a setting nor a value of one. -/
  | unexpectedArgument (word : String)
  /-- A value for a flag that takes none. -/
  | unexpectedValue (value : String) (s : Switch)
  | missingValue (v : Valued)
  /-- A setting that is allowed once only. -/
  | repeated (s : Setting)
  deriving DecidableEq, Repr

/-- What the error is reported as. Words are repeated without controls for a
terminal. -/
def UsageError.message : UsageError → String
  | .unexpectedArgument word => "unexpected argument '" ++ Text.stripControls word ++ "' found"
  | .unexpectedValue value s =>
    "unexpected value '" ++ Text.stripControls value ++ "' for '" ++ (Setting.switch s).display
      ++ "' found; no more were expected"
  | .missingValue v =>
    "a value is required for '" ++ (Setting.valued v).display ++ "' but none was supplied"
  | .repeated s => "the argument '" ++ s.display ++ "' cannot be used multiple times"

/-- Why a command line does not ask for a run. -/
inductive Stop
  | notice (n : Notice)
  | usage (e : UsageError)
  deriving DecidableEq, Repr

/-! ## Words -/

/-- The form of an argument. -/
inductive Word
  /-- Two dashes: all words behind them are positional. -/
  | escape
  /-- Two dashes and a name, and perhaps a value behind `=`. -/
  | long (name : String) (value : Option String)
  /-- One dash and letters. -/
  | short (letters : List Char)
  /-- Any other word, a lone dash and the empty word among them. -/
  | plain (text : String)
  deriving DecidableEq, Repr

/-- Part a long setting at its first equals sign. -/
def Word.ofLong (cs : List Char) : Word :=
  let name := String.ofList (cs.takeWhile (· ≠ '='))
  match cs.dropWhile (· ≠ '=') with
  | [] => .long name none
  | _ :: value => .long name (some (String.ofList value))

def Word.ofText (text : String) : Word :=
  match text.toList with
  | ['-', '-'] => .escape
  | '-' :: '-' :: cs => .ofLong cs
  | ['-'] => .plain text
  | '-' :: cs => .short cs
  | _ => .plain text

/-! ## Reading -/

/-- Put a value into its place. Only `--ignore` may be given again. -/
def store (c : CommandLine) (v : Valued) (text : String) : Except Stop CommandLine :=
  match v with
  | .config =>
    if c.config.isSome then .error (.usage (.repeated (.valued v)))
    else .ok { c with config := some text }
  | .profile =>
    if c.profile.isSome then .error (.usage (.repeated (.valued v)))
    else .ok { c with profile := some text }
  | .ignore => .ok { c with ignore := c.ignore ++ [text] }

/-- Obey a flag; `full` says whether it is written with its long name. -/
def obey (c : CommandLine) (full : Bool) : Switch → Except Stop CommandLine
  | .dryRun =>
    if c.dryRun then .error (.usage (.repeated (.switch .dryRun)))
    else .ok { c with dryRun := true }
  | .verbose => .ok { c with verbosity := min (c.verbosity + 1) maxVerbosity }
  | .help => .error (.notice (.help full))
  | .version => .error (.notice .version)

/-- A command line in the middle of being read: what has been settled, and
the option that is held, with its value once that has been seen. -/
structure Progress where
  settled : CommandLine := {}
  held : Option (Valued × Option String) := none
  deriving DecidableEq, Repr

namespace Progress

/-- Put what is held into its place. -/
def settle (p : Progress) : Except Stop CommandLine :=
  match p.held with
  | none => .ok p.settled
  | some (v, none) => .error (.usage (.missingValue v))
  | some (v, some text) => p.settled.store v text

/-- Read a flag. -/
def switch (p : Progress) (full : Bool) (s : Switch) : Except Stop Progress := do
  let c ← p.settle
  return ⟨← c.obey full s, none⟩

/-- Read a word that begins with two dashes. -/
def long (p : Progress) (name : String) (value : Option String) : Except Stop Progress :=
  match Setting.ofName? name, value with
  | none, _ => .error (.usage (.unexpectedArgument ("--" ++ name)))
  | some (.switch s), some text => .error (.usage (.unexpectedValue text s))
  | some (.switch s), none => p.switch true s
  | some (.valued v), none => do return ⟨← p.settle, some (v, none)⟩
  | some (.valued v), some text => do
    let c ← p.settle
    return ⟨← c.store v text, none⟩

/-- Read the letters behind a dash, one after the other. -/
def short (p : Progress) : List Char → Except Stop Progress
  | [] => .ok p
  | letter :: letters =>
    match Switch.ofLetter? letter with
    | none => .error (.usage (.unexpectedArgument (String.ofList ['-', letter])))
    | some s => do
      let q ← p.switch false s
      q.short letters

/-- Read a word that can only be a value. -/
def plain (p : Progress) (text : String) : Except Stop Progress :=
  match p.held with
  | some (v, none) => .ok { p with held := some (v, some text) }
  | _ => .error (.usage (.unexpectedArgument text))

/-- Read the rest of a command line. -/
def finish (p : Progress) : List String → Except Stop CommandLine
  | [] => p.settle
  | word :: words =>
    match Word.ofText word with
    | .escape =>
      match words with
      | [] => p.settle
      | text :: _ => .error (.usage (.unexpectedArgument text))
    | .long name value => do
      let q ← p.long name value
      q.finish words
    | .short letters => do
      let q ← p.short letters
      q.finish words
    | .plain text => do
      let q ← p.plain text
      q.finish words

end Progress

/-- Read a command line, without the name of the program. -/
def ofArgs? (args : List String) : Except Stop CommandLine := Progress.finish {} args

end CommandLine

end AdvisoryGate
