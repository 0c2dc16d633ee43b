import AdvisoryGate.Toml.Document
import AdvisoryGate.Toml.Excerpt
import AdvisoryGate.Text.Quoted

/-!
# The configuration

A configuration is a TOML document with five keys, all optional: `schema`,
`profile` and `command` are strings, `args` and `ignore` arrays of strings.

The keys of the document are looked at in ascending order of their bytes,
wherever they stand in the text, and the first one that is not a field or
whose value does not fit is what is reported.
-/

namespace AdvisoryGate

/-- What a configuration says. -/
structure Config where
  /-- The version of the format the author had in mind. -/
  schema : Option String := none
  /-- The name of a preset. -/
  profile : Option String := none
  /-- The program to run in place of the default. -/
  command : Option String := none
  /-- The leading arguments of the program. -/
  args : Option (List String) := none
  /-- Ids of advisories to ignore, besides the preset. -/
  ignore : List String := []
  deriving DecidableEq, Repr

namespace Config

/-! ## What can be wrong -/

/-- What a field holds. -/
inductive Shape
  | string
  | sequence
  deriving DecidableEq, Repr

/-- Why a document is no configuration. -/
inductive Problem
  /-- The key is not a field. -/
  | unknownField (name : String)
  /-- The value is of another type than the field; `found` describes it. -/
  | wrongType (found : String) (expected : Shape)
  /-- The value is a whole number that takes more than 128 bits. -/
  | integerOverflow
  /-- The value is a real number beyond the range of doubles. -/
  | realOverflow
  deriving DecidableEq, Repr

/-- A problem and the part of the text that it is about. -/
structure Fault where
  problem : Problem
  span : Toml.Span
  deriving DecidableEq, Repr

/-- Why a text cannot be read as a configuration. -/
inductive Error
  /-- It is not a TOML document. -/
  | malformed
  /-- It is one, but does not fit. -/
  | misfit (fault : Fault)
  deriving DecidableEq, Repr

def Shape.describe : Shape → String
  | .string => "a string"
  | .sequence => "a sequence"

/-- The names of the fields, in the order in which messages list them. -/
def fieldNames : List String := ["schema", "profile", "command", "args", "ignore"]

def Problem.message : Problem → String
  | .unknownField name =>
    "unknown field `" ++ name ++ "`, expected one of "
      ++ ", ".intercalate (fieldNames.map fun f => "`" ++ f ++ "`")
  | .wrongType found expected =>
    "invalid type: " ++ found ++ ", expected " ++ expected.describe
  | .integerOverflow => "integer number overflowed"
  | .realOverflow => "floating-point number overflowed"

/-- What the error is reported as, given the text that was read. Of a text
that is no document only the beginning is told. What follows in the program,
the line at which its reader of documents stopped and what it had hoped for
there, is that reader's wording and left out. -/
def Error.message (text : String) : Error → String
  | .malformed => "TOML parse error"
  | .misfit fault => Toml.excerpt text.toList fault.span fault.problem.message

/-! ## Values of a wrong type -/

/-- The name of the smallest format that holds a whole number, where it is
not the usual one. -/
def integerFormat (n : Int) : String :=
  if Width.fits 64 n then ""
  else if Width.fitsSigned 128 n then " as i128"
  else " as u128"

/-- A real number as messages show it. -/
def describeReal : Toml.Real → String
  | .nan => "NaN"
  | .infinite negative => if negative then "-inf" else "inf"
  | .finite negative x => x.display negative
  | .overflow => ""

/-- The problem with a value that is not what the field holds. -/
def wrongType (v : Toml.Value) (expected : Shape) : Problem :=
  match v with
  | .integer none => .integerOverflow
  | .real .overflow => .realOverflow
  | .integer (some n) =>
    .wrongType ("integer `" ++ toString n ++ "`" ++ integerFormat n) expected
  | .real x => .wrongType ("floating point `" ++ describeReal x ++ "`") expected
  | .boolean b => .wrongType ("boolean `" ++ toString b ++ "`") expected
  | .string s => .wrongType ("string " ++ Text.quoted s) expected
  | .array _ _ => .wrongType "sequence" expected
  | .table _ _ | .moment => .wrongType "map" expected

/-! ## Decoding -/

/-- The string that a value is. -/
def stringOf (v : Toml.Located Toml.Value) : Except Fault String :=
  match v.value with
  | .string s => .ok s
  | other => .error ⟨wrongType other .string, v.span⟩

/-- The strings that a value lists. -/
def stringsOf (v : Toml.Located Toml.Value) : Except Fault (List String) :=
  match v.value with
  | .array _ items => items.mapM stringOf
  | other => .error ⟨wrongType other .sequence, v.span⟩

/-- Enter the value of one key. -/
def enter (cfg : Config) (k : Toml.Key) (v : Toml.Located Toml.Value) :
    Except Fault Config :=
  match k.name with
  | "schema" => (stringOf v).map fun s => { cfg with schema := some s }
  | "profile" => (stringOf v).map fun s => { cfg with profile := some s }
  | "command" => (stringOf v).map fun s => { cfg with command := some s }
  | "args" => (stringsOf v).map fun l => { cfg with args := some l }
  | "ignore" => (stringsOf v).map fun l => { cfg with ignore := l }
  | name => .error ⟨.unknownField name, k.span⟩

/-- The entries in ascending order of their keys. -/
def inKeyOrder (es : Toml.Entries) : Toml.Entries :=
  es.mergeSort fun a b => (Text.order a.1.name b.1.name).isLE

/-- The configuration that a table holds. -/
def decode (es : Toml.Entries) : Except Fault Config :=
  (inKeyOrder es).foldlM (fun cfg e => cfg.enter e.1 e.2) {}

/-- The configuration that a text holds. -/
def parse (text : String) : Except Error Config :=
  match Toml.parse? text.toList with
  | none => .error .malformed
  | some es => (decode es).mapError .misfit

end Config

end AdvisoryGate
