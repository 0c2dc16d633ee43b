import AdvisoryGate.Number.Double

/-!
# TOML values

A document denotes a table. Keys and values remember where in the text
they stand, so that a value that does not fit can be pointed at, and tables
and arrays remember how they came about, because that decides what a later
line may still add to them.

A place in the text is given by what follows it: the text that remains
from there on. No counting is needed until a place has to be shown.
-/

namespace AdvisoryGate.Toml

/-! ## Places -/

/-- A part of a text: the text from its first character on, and the text
behind it. -/
structure Span where
  start : List Char
  stop : List Char
  deriving DecidableEq, Repr

/-- Something read, with the part of the text it was read from. -/
structure Located (α : Type) where
  span : Span
  value : α
  deriving Repr

/-- A key as it denotes, and where it stands. -/
structure Key where
  name : String
  span : Span
  deriving DecidableEq, Repr

/-! ## Values -/

/-- A floating-point literal. -/
inductive Real
  | nan
  | infinite (negative : Bool)
  | finite (negative : Bool) (x : Double)
  /-- A finite literal beyond the range of doubles. -/
  | overflow
  deriving DecidableEq, Repr

/-- How an array came about. -/
inductive ArrayKind
  /-- Written in brackets; nothing can be added to it. -/
  | listed
  /-- Made by headers in double brackets, one table for each. -/
  | headed
  deriving DecidableEq, Repr

/-- How a table came about. -/
inductive TableKind
  /-- The document itself, or a table opened by a header of its own. -/
  | headed
  /-- Part of the path of a header, with no header of its own so far. -/
  | implied
  /-- Part of a dotted key. -/
  | dotted
  /-- Written in braces; nothing can be added to it. -/
  | inline
  deriving DecidableEq, Repr

inductive Value
  | string (text : String)
  /-- A whole number; `none` if it takes more than 128 bits. -/
  | integer (n : Option Int)
  | real (x : Real)
  | boolean (b : Bool)
  /-- A date, a time or both. -/
  | moment
  | array (kind : ArrayKind) (items : List (Located Value))
  | table (kind : TableKind) (entries : List (Key × Located Value))

/-- The entries of a table in the order in which they were made. -/
abbrev Entries := List (Key × Located Value)

/-- The value of a key. -/
def Entries.find? (es : Entries) (name : String) : Option (Located Value) :=
  (List.find? (fun e => e.1.name = name) es).map (·.2)

end AdvisoryGate.Toml
