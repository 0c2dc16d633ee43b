import AdvisoryGate.Text.Lenient

/-!
# Formats

How `printf` and `echo` write: escapes denote bytes, and the directives of
a format write arguments as texts. The tools of a shell and the programs of
the same name differ in a few escapes and in what they say about faults.
-/

namespace AdvisoryGate.Machine

/-- Who reads a text with escapes. -/
inductive Dialect
  | shell
  | echo
  | printf
  deriving DecidableEq, Repr

/-! ## Escapes -/

/-- The bytes of a character. -/
def bytesOf (c : Char) : List UInt8 := String.utf8EncodeChar c

/-- The value of a character as a digit. -/
def digit? (base : Nat) (c : Char) : Option Nat :=
  let n :=
    if c.isDigit then c.toNat - '0'.toNat
    else if 'a' ≤ c ∧ c ≤ 'f' then c.toNat - 'a'.toNat + 10
    else if 'A' ≤ c ∧ c ≤ 'F' then c.toNat - 'A'.toNat + 10
    else base
  if n < base then some n else none

/-- Up to `n` digits as a number, and what follows them. -/
def takeNumber (base : Nat) : Nat → Nat → List Char → Nat × List Char
  | 0, value, cs => (value, cs)
  | _ + 1, value, [] => (value, [])
  | n + 1, value, c :: cs =>
    match digit? base c with
    | some d => takeNumber base n (base * value + d) cs
    | none => (value, c :: cs)

/-- The character of a one-letter escape. -/
def escape? (d : Dialect) : Char → Option Char
  | 'a' => some '\x07'
  | 'b' => some '\x08'
  | 'e' => some '\x1b'
  | 'f' => some '\x0c'
  | 'n' => some '\n'
  | 'r' => some '\r'
  | 't' => some '\t'
  | 'v' => some '\x0b'
  | '\\' => some '\\'
  | '"' => if d = .printf then some '"' else none
  | _ => none

/-- What an escape denotes, given what stands behind the backslash, and what
follows it. A number denotes a byte; with `zero` the first digit of a number
that begins with 0 does not count as one of its three. -/
def escapeBytes (d : Dialect) (zero : Bool) : List Char → List UInt8 × List Char
  | [] => (bytesOf '\\', [])
  | c :: cs =>
    if (digit? 8 c).isSome then
      let (value, rest) := takeNumber 8 3 0 (if zero && c = '0' then cs else c :: cs)
      ([UInt8.ofNat value], rest)
    else if c = 'x' && d ≠ .shell && (cs.head?.bind (digit? 16)).isSome then
      let (value, rest) := takeNumber 16 2 0 cs
      ([UInt8.ofNat value], rest)
    else
      match escape? d c with
      | some e => (bytesOf e, cs)
      | none => (bytesOf '\\' ++ bytesOf c, cs)

/-- Read the escapes of a text. The second part says whether `\c` has not
put an end to all output. -/
def unescape (d : Dialect) : Nat → List Char → List UInt8 × Bool
  | 0, _ => ([], true)
  | _ + 1, [] => ([], true)
  | _ + 1, '\\' :: 'c' :: _ => ([], false)
  | n + 1, '\\' :: cs =>
    let (bytes, rest) := escapeBytes d true cs
    let (out, goesOn) := unescape d n rest
    (bytes ++ out, goesOn)
  | n + 1, c :: cs =>
    let (out, goesOn) := unescape d n cs
    (bytesOf c ++ out, goesOn)

/-! ## Formats -/

namespace Format

/-- A directive that there is not. -/
structure Fault where
  directive : String
  deriving DecidableEq, Repr

/-- What comes of a format. -/
structure Formatted where
  bytes : List UInt8
  /-- The arguments that are left. -/
  rest : List String
  /-- The format has asked for an argument. -/
  asked : Bool
  /-- Nothing has put an end to all output. -/
  goesOn : Bool
  fault : Option Fault

/-- Put bytes in front. -/
def Formatted.behind (f : Formatted) (bytes : List UInt8) : Formatted :=
  { f with bytes := bytes ++ f.bytes }

/-- What a conversion writes for an argument, and whether it does not put an
end to all output; `none` if there is no such conversion. -/
def convert? (d : Dialect) (c : Char) (argument : String) : Option (List UInt8 × Bool) :=
  match c with
  | 's' => some (argument.toList.flatMap bytesOf, true)
  | 'b' => some (unescape d (argument.length + 1) argument.toList)
  | _ => none

/-- One use of a format. -/
def once (d : Dialect) : Nat → List Char → List String → Formatted
  | 0, _, args | _ + 1, [], args => ⟨[], args, false, true, none⟩
  | n + 1, '%' :: '%' :: cs, args => (once d n cs args).behind (bytesOf '%')
  | _ + 1, ['%'], args => ⟨[], args, true, false, some ⟨"%"⟩⟩
  | n + 1, '%' :: c :: cs, args =>
    match convert? d c (args.headD "") with
    | none => ⟨[], args, true, false, some ⟨String.ofList ['%', c]⟩⟩
    | some (bytes, true) => { (once d n cs args.tail).behind bytes with asked := true }
    | some (bytes, false) => ⟨bytes, args.tail, true, false, none⟩
  | n + 1, '\\' :: cs, args =>
    let (bytes, cs) := escapeBytes d false cs
    (once d n cs args).behind bytes
  | n + 1, c :: cs, args => (once d n cs args).behind (bytesOf c)

/-- Use a format again and again until no argument is left. -/
def all (d : Dialect) : Nat → List Char → List String → List UInt8 × Option Fault
  | 0, _, _ => ([], none)
  | n + 1, format, args =>
    let f := once d (format.length + 1) format args
    if f.asked && f.goesOn && !f.rest.isEmpty then
      let (bytes, fault) := all d n format f.rest
      (f.bytes ++ bytes, fault)
    else (f.bytes, f.fault)

/-- The text that a format makes of arguments, and its fault. -/
def apply (d : Dialect) (format : String) (args : List String) : String × Option Fault :=
  let (bytes, fault) := all d (args.length + 1) format.toList args
  (Text.lenient bytes, fault)

/-- Whether a format asks for an argument. -/
def asks (format : String) : Bool := (once .printf (format.length + 1) format.toList []).asked

/-- How a shell complains. -/
def Fault.shellMessage (f : Fault) : String := f.directive ++ ": invalid directive"

/-- How the program complains. -/
def Fault.programMessage (f : Fault) : String :=
  f.directive ++ ": invalid conversion specification"

end Format

end AdvisoryGate.Machine
