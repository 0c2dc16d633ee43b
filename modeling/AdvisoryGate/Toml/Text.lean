import AdvisoryGate.Text.CodePoint
import AdvisoryGate.Toml.Layout

/-!
# TOML strings

The four spellings of a string. Strings on one line end at their quote;
strings between triple quotes may hold line breaks and up to two quotes in
a row, also right before the closing ones. In double quotes a backslash
begins an escape, in single quotes it is a character like any other.

Escapes and triple quotes are read by a machine that takes one character
at a time: its mode says what the characters before it have announced.
-/

namespace AdvisoryGate.Toml

/-! ## Escapes -/

/-- The character that a short escape denotes. -/
def escapeLetter? : Char → Option Char
  | 'b' => some '\u0008'
  | 't' => some '\t'
  | 'n' => some '\n'
  | 'f' => some '\u000c'
  | 'r' => some '\r'
  | 'e' => some '\u001b'
  | '"' => some '"'
  | '\\' => some '\\'
  | _ => none

/-- The number of hexadecimal digits that follow the letter of an escape. -/
def codeLength? : Char → Option Nat
  | 'x' => some 2
  | 'u' => some 4
  | 'U' => some 8
  | _ => none

/-- What the characters read so far have announced. -/
inductive Mode
  | plain
  /-- A backslash. -/
  | escape
  /-- So many more digits of a code point, whose value so far is given. -/
  | code (left : Nat) (value : Nat)
  /-- A backslash at the end of a line: blanks are dropped up to the next
  visible character. The flag tells whether a line break has come. -/
  | fold (broken : Bool)
  /-- A carriage return, after which only a line feed can follow. -/
  | carriage (folding : Bool)
  /-- So many quotes in a row. -/
  | quotes (count : Nat)
  deriving DecidableEq, Repr

/-- What a character inside an escape adds to the string, and the mode
behind it. -/
def escapeStep : Mode → Char → Option (List Char × Mode)
  | .escape, c =>
    match escapeLetter? c, codeLength? c with
    | some d, _ => some ([d], .plain)
    | none, some n => some ([], .code n 0)
    | none, none => none
  | .code left value, c => do
    let n := 16 * value + (← Text.hexDigit? c)
    if left ≤ 1 then return ([← Text.scalar? n], .plain)
    return ([], .code (left - 1) n)
  | _, _ => none

/-! ## On one line -/

/-- The rest of a string in double quotes, up to and with the quote. -/
def basicString? : Mode → List Char → Option (List Char × List Char)
  | _, [] => none
  | .plain, c :: r =>
    if c = '"' then some ([], r)
    else if c = '\\' then basicString? .escape r
    else if isPlain c then (basicString? .plain r).map fun (s, r) => (c :: s, r)
    else none
  | mode, c :: r => do
    let (out, mode) ← escapeStep mode c
    let (s, r) ← basicString? mode r
    return (out ++ s, r)

/-- The rest of a string in single quotes, up to and with the quote. -/
def literalString? : List Char → Option (List Char × List Char)
  | [] => none
  | c :: r =>
    if c = '\'' then some ([], r)
    else if isPlain c then (literalString? r).map fun (s, r) => (c :: s, r)
    else none

/-! ## Between triple quotes -/

/-- The quote of a string, by whether backslashes in it are ordinary. -/
def quoteOf (verbatim : Bool) : Char := if verbatim then '\'' else '"'

/-- What a character adds to a string between triple quotes when nothing
has been announced, and the mode behind it. -/
def plainStep (verbatim : Bool) (c : Char) : Option (List Char × Mode) :=
  if c = quoteOf verbatim then some ([], .quotes 1)
  else if c = '\\' ∧ !verbatim then some ([], .escape)
  else if c = '\r' then some ([], .carriage false)
  else if c = '\n' ∨ isPlain c then some ([c], .plain)
  else none

/-- The same in any mode. -/
def multilineStep (verbatim : Bool) : Mode → Char → Option (List Char × Mode)
  | .plain, c => plainStep verbatim c
  | .carriage folding, c =>
    if c ≠ '\n' then none
    else if folding then some ([], .fold true)
    else some (['\r', '\n'], .plain)
  | .escape, c =>
    if isSpace c then some ([], .fold false)
    else if c = '\n' then some ([], .fold true)
    else if c = '\r' then some ([], .carriage true)
    else escapeStep .escape c
  | .fold broken, c =>
    if isSpace c then some ([], .fold broken)
    else if c = '\n' then some ([], .fold true)
    else if c = '\r' then some ([], .carriage true)
    else if broken then plainStep verbatim c
    else none
  | .quotes n, c =>
    if c = quoteOf verbatim then some ([], .quotes (n + 1))
    else (plainStep verbatim c).map fun (out, mode) =>
      (List.replicate n (quoteOf verbatim) ++ out, mode)
  | .code left value, c => escapeStep (.code left value) c

/-- The string can end here: three quotes close it, and the quotes before
them belong to it. -/
def closing? (verbatim : Bool) : Mode → Option (List Char)
  | .quotes n =>
    if 3 ≤ n then some (List.replicate (n - 3) (quoteOf verbatim)) else none
  | _ => none

/-- The rest of a string between triple quotes, up to and with the closing
ones: as many quotes as there are, but no more than five. -/
def multilineString? (verbatim : Bool) :
    Mode → List Char → Option (List Char × List Char)
  | mode, [] => (closing? verbatim mode).map fun out => (out, [])
  | mode, c :: r =>
    let more := c = quoteOf verbatim ∧ mode ≠ .quotes 5
    match if more then none else closing? verbatim mode with
    | some out => some (out, c :: r)
    | none => do
      let (out, mode) ← multilineStep verbatim mode c
      let (s, r) ← multilineString? verbatim mode r
      return (out ++ s, r)

/-- A line break right behind the opening quotes is dropped. -/
def dropBreak (cs : List Char) : List Char := (lineBreak? cs).getD cs

/-! ## All spellings -/

/-- A string in quotes on one line, as it can stand for a key too. -/
def lineString? : List Char → Option (String × List Char)
  | '"' :: r => (basicString? .plain r).map fun (s, r) => (.ofList s, r)
  | '\'' :: r => (literalString? r).map fun (s, r) => (.ofList s, r)
  | _ => none

/-- A string in any spelling. -/
def string? : List Char → Option (String × List Char)
  | '"' :: '"' :: '"' :: r =>
    (multilineString? false .plain (dropBreak r)).map fun (s, r) => (.ofList s, r)
  | '\'' :: '\'' :: '\'' :: r =>
    (multilineString? true .plain (dropBreak r)).map fun (s, r) => (.ofList s, r)
  | cs => lineString? cs

end AdvisoryGate.Toml
