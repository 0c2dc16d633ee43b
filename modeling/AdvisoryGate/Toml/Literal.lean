import AdvisoryGate.Number.Width
import AdvisoryGate.Toml.Value
import AdvisoryGate.Toml.Text

/-!
# TOML literals

Numbers, booleans, dates and times: the values that stand as a bare word.
Underscores may part the digits of a number. A number is read exactly: a
whole number that takes more than 128 bits and a real number beyond the
doubles are values too, and it is for whoever looks at them to object.
-/

namespace AdvisoryGate.Toml

/-! ## Digits -/

def isDigit (c : Char) : Bool := '0' ≤ c && c ≤ '9'

def isHexDigit (c : Char) : Bool := (Text.hexDigit? c).isSome

/-- A text without its underscores, each of which has to stand between two
digits. The flag tells whether an underscore may come first. -/
def parted? (digit : Char → Bool) : Bool → List Char → Option (List Char)
  | _, [] => some []
  | _, ['_'] => none
  | before, '_' :: c :: r =>
    if before && digit c then (parted? digit true r).map (c :: ·) else none
  | _, c :: r => (parted? digit (digit c) r).map (c :: ·)

/-- The digits of a run of digits that underscores part. -/
def digitRun? (digit : Char → Bool) (before : Bool) (cs : List Char) : Option (List Char) :=
  (parted? digit before cs).filter fun ds => !ds.isEmpty && ds.all digit

/-- The number that digits denote. -/
def digitsValue (base : Nat) (ds : List Char) : Nat :=
  ds.foldl (fun n c => base * n + (Text.hexDigit? c).getD 0) 0

/-- The sign of a number. -/
inductive Sign
  | unsigned
  | plus
  | minus
  deriving DecidableEq, Repr

/-- A sign counts as a digit: an underscore may follow it. -/
def Sign.isGiven (s : Sign) : Bool := s ≠ .unsigned

/-- Take the sign off a number. -/
def signed : List Char → Sign × List Char
  | '-' :: r => (.minus, r)
  | '+' :: r => (.plus, r)
  | cs => (.unsigned, cs)

/-- The text begins with 0, and that is not all there is. -/
def isZeroLed : List Char → Bool
  | '0' :: _ :: _ => true
  | _ => false

/-! ## Whole numbers -/

/-- The number if it can be held in 128 bits, with or without a sign. -/
def inRange (n : Int) : Option Int :=
  if Width.fits 128 n then some n else none

/-- A number after the mark of its base. Without a digit it is a number
that cannot be held, not a malformed one. -/
def basedInteger? (base : Nat) : List Char → Option (Option Int)
  | [] => some none
  | cs =>
    (digitRun? (fun c => (Text.hexDigit? c).any (· < base)) false cs).map fun ds =>
      inRange (digitsValue base ds)

/-- What follows the first digits of a word leaves it a whole number in
form: nothing, or anything behind an underscore but what marks a real
number. -/
def isWholeRest : List Char → Bool
  | [] => true
  | c :: r => c = '_' && !r.any fun c => c = '.' || c = 'e' || c = 'E'

/-- A whole number to the base 10. One that digits and underscores begin and
other characters follow is a number that cannot be held: only around
underscores is it asked for digits, and then for those of any base. -/
def decimalInteger? (sign : Sign) (cs : List Char) : Option (Option Int) :=
  if cs.isEmpty || isZeroLed cs || !isWholeRest (cs.dropWhile isDigit) then none
  else (parted? isHexDigit sign.isGiven cs).map fun ds =>
    if ds.all isDigit then
      let n : Int := digitsValue 10 ds
      inRange (if sign = .minus then -n else n)
    else none

/-- A whole number. -/
def integer? : List Char → Option (Option Int)
  | '0' :: 'x' :: r => basedInteger? 16 r
  | '0' :: 'o' :: r => basedInteger? 8 r
  | '0' :: 'b' :: r => basedInteger? 2 r
  | cs => let (sign, cs) := signed cs; decimalInteger? sign cs

/-! ## Real numbers -/

/-- The digits of a fraction and what follows it; there may be none. -/
def fraction? : List Char → Option (List Char × List Char)
  | '.' :: r =>
    let (cs, rest) := r.span fun c => isDigit c || c = '_'
    (digitRun? isDigit false cs).map fun ds => (ds, rest)
  | cs => some ([], cs)

/-- An exponent, with nothing behind it; there may be none. -/
def power? : List Char → Option Int
  | [] => some 0
  | c :: r =>
    if c = 'e' ∨ c = 'E' then
      let (sign, cs) := signed r
      (digitRun? isDigit false cs).map fun ds =>
        let n : Int := digitsValue 10 ds
        if sign = .minus then -n else n
    else none

/-- A real number in digits, with a fraction, an exponent or both. -/
def decimal? (sign : Sign) (cs : List Char) : Option Real := do
  let (whole, rest) := cs.span fun c => isDigit c || c = '_'
  if isZeroLed whole || rest.isEmpty then none
  let whole ← digitRun? isDigit sign.isGiven whole
  let (fraction, rest) ← fraction? rest
  let power ← power? rest
  let digits := digitsValue 10 (whole ++ fraction)
  match Double.ofDecimal? digits (power - fraction.length) with
  | some x => some (.finite (sign = .minus) x)
  | none => some .overflow

/-- A real number, or one of the two words for what is none. -/
def real? (cs : List Char) : Option Real :=
  let (sign, cs) := signed cs
  if cs = "inf".toList then some (.infinite (sign = .minus))
  else if cs = "nan".toList then some .nan
  else decimal? sign cs

/-! ## Dates and times -/

/-- The number that two digits denote. -/
def twoDigits? (a b : Char) : Option Nat :=
  if isDigit a ∧ isDigit b then some (digitsValue 10 [a, b]) else none

def daysIn (year month : Nat) : Nat :=
  let leap := year % 4 = 0 ∧ (year % 100 ≠ 0 ∨ year % 400 = 0)
  if month = 2 then if leap then 29 else 28
  else if month ∈ [4, 6, 9, 11] then 30
  else 31

/-- What follows a date. -/
def date? : List Char → Option (List Char)
  | y₁ :: y₂ :: y₃ :: y₄ :: '-' :: m₁ :: m₂ :: '-' :: d₁ :: d₂ :: r => do
    let year := 100 * (← twoDigits? y₁ y₂) + (← twoDigits? y₃ y₄)
    let month ← twoDigits? m₁ m₂
    let day ← twoDigits? d₁ d₂
    if 1 ≤ month ∧ month ≤ 12 ∧ 1 ≤ day ∧ day ≤ daysIn year month then some r
    else none
  | _ => none

/-- What follows hours and minutes. -/
def clock? : List Char → Option (List Char)
  | h₁ :: h₂ :: ':' :: m₁ :: m₂ :: r => do
    if (← twoDigits? h₁ h₂) ≤ 23 ∧ (← twoDigits? m₁ m₂) ≤ 59 then some r
    else none
  | _ => none

/-- What follows the fraction of a second, if there is one. -/
def subsecond? : List Char → Option (List Char)
  | '.' :: r =>
    if (r.takeWhile isDigit).isEmpty then none else some (r.dropWhile isDigit)
  | r => some r

/-- What follows the seconds and their fraction, if there are any. A minute
may have a leap second. -/
def seconds? : List Char → Option (List Char)
  | ':' :: s₁ :: s₂ :: r => do
    if (← twoDigits? s₁ s₂) ≤ 60 then subsecond? r else none
  | r => some r

/-- What follows a time. -/
def time? (cs : List Char) : Option (List Char) := (clock? cs).bind seconds?

/-- The text is an offset from universal time, or empty. -/
def isOffset : List Char → Bool
  | [] | ['Z'] | ['z'] => true
  | c :: r => (c = '+' || c = '-') && clock? r = some []

/-- The text is a time with nothing behind it but, after a date, an offset. -/
def isTime (afterDate : Bool) (cs : List Char) : Bool :=
  match time? cs with
  | some r => if afterDate then isOffset r else r.isEmpty
  | none => false

/-- The word is a date, a time, or a date and a time joined by `T`. -/
def isMoment (cs : List Char) : Bool :=
  match date? cs with
  | some [] => true
  | some (c :: r) => (c = 'T' || c = 't') && isTime true r
  | none => isTime false cs

/-! ## Words -/

/-- The value of a bare word. -/
def word? (cs : List Char) : Option Value :=
  if cs = "true".toList then some (.boolean true)
  else if cs = "false".toList then some (.boolean false)
  else if isMoment cs then some .moment
  else ((integer? cs).map .integer).or ((real? cs).map .real)

/-- The character can be part of a bare word. -/
def isWordChar (c : Char) : Bool := !" \t\r\n,=[]\x7b\x7d#".toList.contains c

/-- A literal. A time may follow its date behind one space. -/
def literal? (cs : List Char) : Option (Value × List Char) :=
  let (w, r) := cs.span isWordChar
  match date? w, r with
  | some [], ' ' :: r' =>
    let (t, rest) := r'.span isWordChar
    if isTime true t then some (.moment, rest) else some (.moment, r)
  | _, _ => (word? w).map fun v => (v, r)

end AdvisoryGate.Toml
