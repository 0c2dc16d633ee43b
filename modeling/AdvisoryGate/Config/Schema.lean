import AdvisoryGate.Json.Layout

/-!
# The schema of configurations

The JSON schema that describes configurations to editors and other tools.
Its properties stand in alphabetical order.
-/

namespace AdvisoryGate.Config.Schema

open Json (Value)

/-- The type of texts. -/
def textType : Value := .string "string"

/-- A type, or null for what is left out. -/
def optionalType (name : String) : Value := .array [.string name, .string "null"]

/-- The items of a list of texts. -/
def textItems : Value := .object [("type", textType)]

/-- A text that may be left out. -/
def optionalText (description : String) : Value :=
  .object [("description", .string description), ("type", optionalType "string")]

/-- The keys of a configuration. -/
def properties : List (String × Value) :=
  [("args", .object
      [("description", .string "Leading arguments for `command` (default `[\"audit\"]`)."),
       ("type", optionalType "array"),
       ("items", textItems)]),
   ("command", optionalText "Program to run instead of `cargo`."),
   ("ignore", .object
      [("description", .string "Extra advisory ids, appended after the preset in order."),
       ("type", .string "array"),
       ("default", .array []),
       ("items", textItems)]),
   ("profile", optionalText "Named ignore-list preset: `default` or `none`."),
   ("schema", optionalText "Optional schema string for tooling (`audit-gate.config.v1`).")]

/-- The schema of a configuration. -/
def value : Value :=
  .object
    [("$schema", .string "https://json-schema.org/draft/2020-12/schema"),
     ("title", .string "AuditGateConfigV1"),
     ("description", .string ("`audit-gate.toml` schema v1.\n\n"
        ++ "Every field is optional. An empty file behaves like no file at all.")),
     ("type", .string "object"),
     ("properties", .object properties),
     ("additionalProperties", .boolean false)]

/-- The text of the schema file. -/
def text : String := value.layout ++ "\n"

end AdvisoryGate.Config.Schema
