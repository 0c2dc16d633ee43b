import AdvisoryGate.Json.Value
import AdvisoryGate.Text.CodePoint

/-!
# JSON texts

Reading a text as a JSON value. Beside what the grammar asks, a text is
refused whose containers are nested too deep, that holds a number out of
range, or that escapes half of a surrogate pair. The range of numbers is
that of a quick conversion to doubles, which rounds three times: the leading
digits, the power of ten, and their product.

Every reader takes the remaining text and answers what it read and what
then remains.
-/

namespace AdvisoryGate.Json

/-! ## Strings -/

/-- The character of a one-letter escape. -/
def escapeLetter? : Char → Option Char
  | '"' => some '"'
  | '\\' => some '\\'
  | '/' => some '/'
  | 'b' => some '\u0008'
  | 'f' => some '\u000c'
  | 'n' => some '\n'
  | 'r' => some '\r'
  | 't' => some '\t'
  | _ => none

/-- What the characters of a string read so far have announced. -/
inductive Mode
  | plain
  /-- A backslash. -/
  | escape
  /-- So many more digits of a number, whose value so far is given, perhaps
  behind the first half of a surrogate pair. -/
  | code (high : Option Nat) (left value : Nat)
  /-- The second half of a surrogate pair, of which a backslash has been
  read or not. -/
  | low (high : Nat) (escaped : Bool)
  deriving DecidableEq, Repr

def isHigh (n : Nat) : Bool := 0xd800 ≤ n && n < 0xdc00

def isLow (n : Nat) : Bool := 0xdc00 ≤ n && n < 0xe000

/-- What a complete number adds to a string, and the mode behind it. -/
def codeStep (high : Option Nat) (n : Nat) : Option (List Char × Mode) :=
  match high with
  | none =>
    if isHigh n then some ([], .low n false)
    else (Text.scalar? n).map fun c => ([c], .plain)
  | some h =>
    if isLow n then
      (Text.scalar? (0x10000 + 0x400 * (h - 0xd800) + (n - 0xdc00))).map fun c => ([c], .plain)
    else none

/-- What a character inside an escape adds to the string, and the mode
behind it. -/
def escapeStep : Mode → Char → Option (List Char × Mode)
  | .plain, _ => none
  | .escape, c =>
    if c = 'u' then some ([], .code none 4 0)
    else (escapeLetter? c).map fun d => ([d], .plain)
  | .code high left value, c => do
    let n := 16 * value + (← Text.hexDigit? c)
    if left ≤ 1 then codeStep high n else return ([], .code high (left - 1) n)
  | .low high false, c => if c = '\\' then some ([], .low high true) else none
  | .low high true, c => if c = 'u' then some ([], .code (some high) 4 0) else none

/-- The rest of a string, up to and with the closing quote. -/
def stringRest? : Mode → List Char → Option (List Char × List Char)
  | _, [] => none
  | .plain, c :: r =>
    if c = '"' then some ([], r)
    else if c = '\\' then stringRest? .escape r
    else if c.toNat < 0x20 then none
    else (stringRest? .plain r).map fun (s, r) => (c :: s, r)
  | mode, c :: r => do
    let (out, mode) ← escapeStep mode c
    let (s, r) ← stringRest? mode r
    return (out ++ s, r)

/-- A string. -/
def string? : List Char → Option (String × List Char)
  | '"' :: r => (stringRest? .plain r).map fun (s, r) => (.ofList s, r)
  | _ => none

/-! ## Numbers -/

def isDigit (c : Char) : Bool := '0' ≤ c && c ≤ '9'

def digitsValue (ds : List Char) : Nat :=
  ds.foldl (fun n c => 10 * n + (c.toNat - '0'.toNat)) 0

/-- The digits before the point, which begin with 0 only if that is all. -/
def whole? (cs : List Char) : Option (List Char × List Char) :=
  match cs.span isDigit with
  | ([], _) => none
  | ('0' :: _ :: _, _) => none
  | (ds, r) => some (ds, r)

/-- The digits of a fraction; there may be none. -/
def fraction? : List Char → Option (List Char × List Char)
  | '.' :: r =>
    match r.span isDigit with
    | ([], _) => none
    | (ds, r) => some (ds, r)
  | r => some ([], r)

/-- An exponent with nothing behind it; there may be none. -/
def power? : List Char → Option Int
  | [] => some 0
  | c :: r =>
    if c = 'e' ∨ c = 'E' then
      let (negative, ds) := match r with
        | '-' :: r => (true, r)
        | '+' :: r => (false, r)
        | r => (false, r)
      if ds.isEmpty || !ds.all isDigit then none
      else some (if negative then -(digitsValue ds : Int) else digitsValue ds)
    else none

/-- The leading digits of a number are those that fit into 64 bits. -/
def maxLeading : Nat := 0xffffffffffffffff

/-- Append digits to a number up to the first that would make it too large;
this one and those behind it remain. -/
def takeDigits (n : Nat) : List Char → Nat × List Char
  | [] => (n, [])
  | c :: cs =>
    let m := 10 * n + (c.toNat - '0'.toNat)
    if m ≤ maxLeading then takeDigits m cs else (n, c :: cs)

/-- The leading digits of a number and the power of ten that goes with them.
The digits of the fraction are tried anew after those before the point: one
of them may fit where the one before the point did not. -/
def leading (whole fraction : List Char) (power : Int) : Double.Decimal :=
  let (n, left) := takeDigits 0 whole
  let (m, left') := takeDigits n fraction
  ⟨m, left.length - (fraction.length - left'.length) + power⟩

/-- The product of the leading digits with their power of ten is a finite
double. Only a positive power can lead out of the range, and the greatest
that has a double is 308. -/
def isInRange (x : Double.Decimal) : Bool :=
  x.digits = 0 || x.exponent ≤ 0 ||
    ((do (← Double.ofDecimal? x.digits 0).mul? (← Double.ofDecimal? 1 x.exponent)) :
      Option Double).isSome

/-- A number without its sign, if it is in range. -/
def decimal? (cs : List Char) : Option Double.Decimal := do
  let (whole, r) ← whole? cs
  let (fraction, r) ← fraction? r
  let power ← power? r
  if isInRange (leading whole fraction power) then
    some ⟨digitsValue (whole ++ fraction), power - fraction.length⟩
  else none

def isNumberChar (c : Char) : Bool := isDigit c || "+-.eE".toList.contains c

def number? (cs : List Char) : Option (Value × List Char) :=
  let (w, r) := cs.span isNumberChar
  match w with
  | '-' :: w => (decimal? w).map fun x => (.number true x, r)
  | w => (decimal? w).map fun x => (.number false x, r)

/-! ## Values -/

def isSpace (c : Char) : Bool := c = ' ' || c = '\t' || c = '\n' || c = '\r'

def skipSpaces (cs : List Char) : List Char := cs.dropWhile isSpace

/-- One or more items with commas between them, up to and with a closing
bracket. -/
def itemsFrom? {α : Type} (item? : List Char → Option (α × List Char)) (closing : Char) :
    Nat → List Char → Option (List α × List Char)
  | 0, _ => none
  | fuel + 1, cs => do
    let (x, r) ← item? (skipSpaces cs)
    match skipSpaces r with
    | [] => none
    | c :: r =>
      if c = closing then return ([x], r)
      else if c = ',' then
        let (xs, r) ← itemsFrom? item? closing fuel r
        return (x :: xs, r)
      else none

/-- Items up to and with a closing bracket; there may be none. -/
def items? {α : Type} (item? : List Char → Option (α × List Char)) (closing : Char)
    (cs : List Char) : Option (List α × List Char) :=
  match skipSpaces cs with
  | [] => none
  | c :: r => if c = closing then some ([], r) else itemsFrom? item? closing (r.length + 1) (c :: r)

/-- A member of an object, with the reader of its value given. -/
def member? (value? : List Char → Option (Value × List Char)) (cs : List Char) :
    Option ((String × Value) × List Char) := do
  let (name, r) ← string? cs
  match skipSpaces r with
  | ':' :: r =>
    let (v, r) ← value? (skipSpaces r)
    return ((name, v), r)
  | _ => none

/-- A value that holds no other. -/
def scalar? (cs : List Char) : Option (Value × List Char) :=
  match cs with
  | 'n' :: 'u' :: 'l' :: 'l' :: r => some (.null, r)
  | 't' :: 'r' :: 'u' :: 'e' :: r => some (.boolean true, r)
  | 'f' :: 'a' :: 'l' :: 's' :: 'e' :: r => some (.boolean false, r)
  | '"' :: _ => (string? cs).map fun (s, r) => (.string s, r)
  | _ => number? cs

/-- A value with at most so many containers inside each other. -/
def value? : Nat → List Char → Option (Value × List Char)
  | 0, cs => scalar? cs
  | depth + 1, cs =>
    match cs with
    | '[' :: r => (items? (value? depth) ']' r).map fun (vs, r) => (.array vs, r)
    | '\x7b' :: r =>
      (items? (member? (value? depth)) '\x7d' r).map fun (ms, r) => (.object ms, r)
    | _ => scalar? cs

/-- How deep containers can be nested. -/
def maxDepth : Nat := 127

/-- The value that a text denotes, if it is a JSON text. -/
def parse? (text : List Char) : Option Value :=
  match value? maxDepth (skipSpaces text) with
  | some (v, r) => if (skipSpaces r).isEmpty then some v else none
  | none => none

end AdvisoryGate.Json
