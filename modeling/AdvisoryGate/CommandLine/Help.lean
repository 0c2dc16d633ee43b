import AdvisoryGate.CommandLine

/-!
# Help

What the gate tells about itself: its settings, in brief (one line each) or
in full (a paragraph each), its version, and what is wrong with a command
line. Both forms of the help come from one table.

Of what is written about a command line that is not understood, only the
first line is told here. What follows it is up to the parser of command
lines, which gives tips, shows the options it has read before it stopped, or
leaves the usage out; it is whatever a host takes it to be, and nothing is
said about it.
-/

namespace AdvisoryGate.CommandLine

/-- What the help says about a setting. -/
structure Topic where
  setting : Setting
  letter : Option Char
  brief : String
  /-- The paragraphs of the full help. -/
  full : List String

/-- A setting whose full help says no more than the brief one. -/
def Topic.plain (setting : Setting) (letter : Option Char) (brief : String) : Topic :=
  ⟨setting, letter, brief, [brief]⟩

/-- All settings, in the order of the help. -/
def topics : List Topic :=
  [⟨.valued .config, none, "Path to audit-gate config TOML",
      ["Path to audit-gate config TOML.",
       "Without this flag, ./audit-gate.toml is loaded automatically when it exists; "
         ++ "run with -v to see which file was used."]⟩,
   .plain (.valued .profile) none "Ignore-list preset (default|none)",
   .plain (.valued .ignore) none "Additional advisory id to ignore. May be repeated",
   .plain (.switch .dryRun) none
     "Print the command that would run and exit without running it",
   .plain (.switch .verbose) (some 'v') "Log more detail to stderr (-v info, -vv debug)",
   ⟨.switch .help, some 'h', "Print help (see more with '--help')",
      ["Print help (see a summary with '-h')"]⟩,
   .plain (.switch .version) (some 'V') "Print version"]

/-- The setting with its letter, if it has one. -/
def Topic.heading (t : Topic) : String :=
  (match t.letter with
    | some c => "  -" ++ toString c ++ ", "
    | none => "      ") ++ t.setting.display

def spaces (n : Nat) : String := String.ofList (List.replicate n ' ')

/-- The column at which the brief texts begin. -/
def briefColumn : Nat :=
  topics.foldr (fun t n => max (t.heading.length + 2) n) 0

/-- One line for a setting. -/
def Topic.line (t : Topic) : String :=
  t.heading ++ spaces (briefColumn - t.heading.length) ++ t.brief ++ "\n"

/-- A setting and its paragraphs, ten columns in. -/
def Topic.paragraph (t : Topic) : String :=
  t.heading ++ "\n" ++ spaces 10 ++ ("\n" ++ spaces 10 ++ "\n" ++ spaces 10).intercalate t.full
    ++ "\n"

/-- How to call the gate under a name. -/
def usage (name : String) : String := "Usage: " ++ name ++ " [OPTIONS]\n"

/-- What the gate is for, and how to use it. -/
def helpText (name : String) (full : Bool) : String :=
  "Run cargo audit, ignoring advisories the maintainers have accepted\n\n" ++ usage name
    ++ "\nOptions:\n"
    ++ (if full then "\n".intercalate (topics.map (·.paragraph))
      else String.join (topics.map (·.line)))

/-- The version line; it does not depend on the name of the program. -/
def versionLine : String := "audit-gate 0.1.0\n"

/-- What is written to answer a question. -/
def Notice.text (name : String) : Notice → String
  | .help full => helpText name full
  | .version => versionLine

/-- What is written about a command line that is not understood: what is
wrong with it, and below that some advice. -/
def UsageError.report (advice : String) (e : UsageError) : String :=
  "error: " ++ e.message ++ "\n" ++ advice

/-- Advice that does not look at the words. -/
def plainAdvice (name : String) (_ : List String) : String :=
  "\n" ++ usage name ++ "\nFor more information, try '--help'.\n"

end AdvisoryGate.CommandLine
