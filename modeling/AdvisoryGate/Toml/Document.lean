import AdvisoryGate.Toml.Key
import AdvisoryGate.Toml.Literal
import AdvisoryGate.Toml.Table

/-!
# TOML documents

Values, lines and whole documents of TOML 1.1. Reading goes in two steps.
The text is first cut into lines: assignments and headers. These are then
carried out in order on an empty table. Either step can fail, and then the
text is no TOML document at all.
-/

namespace AdvisoryGate.Toml

/-! ## Values -/

/-- Items up to and with a closing bracket, with a comma behind each but
perhaps the last. -/
def items? {α : Type} (item? : List Char → Option (α × List Char)) (closing : Char) :
    Nat → List Char → Option (List α × List Char)
  | 0, _ => none
  | fuel + 1, cs => do
    match ← skipGap false cs with
    | [] => none
    | c :: r =>
      if c = closing then return ([], r)
      let (x, r) ← item? (c :: r)
      match ← skipGap false r with
      | ',' :: r =>
        let (xs, r) ← items? item? closing fuel r
        return (x :: xs, r)
      | c :: r => if c = closing then return ([x], r) else none
      | [] => none

/-- An assignment, with readers given for the gaps on both sides of the sign
and for the value. -/
def assignment? (gap? : List Char → Option (List Char))
    (value? : List Char → Option (Located Value × List Char))
    (cs : List Char) : Option (Assignment × List Char) := do
  let (path, r) ← path? maxDepth cs
  match ← gap? r with
  | '=' :: r =>
    let (v, r) ← value? (← gap? r)
    return (⟨path, v⟩, r)
  | _ => none

/-- A value that holds no other. -/
def scalarValue? (cs : List Char) : Option (Located Value × List Char) :=
  match string? cs with
  | some (s, r) => some (⟨⟨cs, r⟩, .string s⟩, r)
  | none => (literal? cs).map fun (v, r) => (⟨⟨cs, r⟩, v⟩, r)

/-- A value with at most so many containers inside each other. -/
def value? : Nat → List Char → Option (Located Value × List Char)
  | 0, cs => scalarValue? cs
  | depth + 1, cs =>
    match cs with
    | '[' :: r => do
      let (items, rest) ← items? (value? depth) ']' (r.length + 1) r
      return (⟨⟨cs, rest⟩, .array .listed items⟩, rest)
    | '\x7b' :: r => do
      let (as, rest) ← items? (assignment? (skipGap false) (value? depth)) '\x7d' (r.length + 1) r
      let es ← Entries.assignAll? [] as
      return (⟨⟨cs, rest⟩, .table .inline es⟩, rest)
    | _ => scalarValue? cs

/-! ## Lines -/

inductive Line
  | empty
  | assignment (a : Assignment)
  | header (repeated : Bool) (span : Span) (path : List Key)

/-- A header, after its opening brackets. The text at these is `start`. -/
def header? (repeated : Bool) (start cs : List Char) : Option (Line × List Char) := do
  let (path, r) ← path? maxDepth (skipSpaces cs)
  match repeated, skipSpaces r with
  | true, ']' :: ']' :: r => return (.header true ⟨start, r⟩ path, r)
  | false, ']' :: r => return (.header false ⟨start, r⟩ path, r)
  | _, _ => none

/-- What a line holds before its end. -/
def lineContent? (cs : List Char) : Option (Line × List Char) :=
  match cs with
  | [] => some (.empty, cs)
  | '#' :: _ | '\n' :: _ | '\r' :: _ => some (.empty, cs)
  | '[' :: '[' :: r => header? true cs r
  | '[' :: r => header? false cs r
  | cs =>
    (assignment? (some ∘ skipSpaces) (value? maxDepth) cs).map fun (a, r) => (.assignment a, r)

/-- A line with its end. -/
def line? (cs : List Char) : Option (Line × List Char) := do
  let (line, r) ← lineContent? (skipSpaces cs)
  return (line, ← lineEnd? r)

/-- The lines of a text. Every line but one at the end of the text takes a
character, so that the length of the text bounds their number. -/
def lines? : Nat → List Char → Option (List Line)
  | _, [] => some []
  | 0, _ => none
  | fuel + 1, cs => do
    let (line, r) ← line? cs
    return line :: (← lines? fuel r)

/-! ## Documents -/

/-- The assignments before the first header, and each header with those
below it. -/
def sections : List Line → List Assignment × List Section
  | [] => ([], [])
  | line :: lines =>
    let (body, rest) := sections lines
    match line with
    | .empty => (body, rest)
    | .assignment a => (a :: body, rest)
    | .header repeated span path => ([], ⟨repeated, span, path, body⟩ :: rest)

/-- The table that lines describe. -/
def tableOf? (lines : List Line) : Option Entries := do
  let (body, rest) := sections lines
  rest.foldlM Entries.extend? (← Entries.assignAll? [] body)

/-- One byte order mark may stand before a document. -/
def skipMark : List Char → List Char
  | '\ufeff' :: r => r
  | cs => cs

/-- The table that a text denotes, if it is a TOML document. -/
def parse? (text : List Char) : Option Entries := do
  let cs := skipMark text
  tableOf? (← lines? cs.length cs)

end AdvisoryGate.Toml
