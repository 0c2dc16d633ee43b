/-!
# Double-precision numbers

A finite double is `m · 2^q` with `m < 2^53`. This module reads a decimal
number into the nearest double (a tie goes to the even mantissa) and shows
a double by the fewest decimal digits that read back to it, of those the
nearest to its value. All of it is exact arithmetic on `Nat` and `Int`.
-/

namespace AdvisoryGate

/-- A finite double without its sign: `mantissa · 2^exponent`. -/
structure Double where
  mantissa : Nat
  exponent : Int
  deriving DecidableEq, Repr

namespace Double

/-! ## Limits of the format -/

/-- Mantissas have at most 53 bits: this is `2^53`. -/
def mantissaLimit : Nat := 0x20000000000000

/-- The least exponent, that of the subnormal numbers. -/
def minExponent : Int := -1074

/-- The greatest exponent of a finite number. -/
def maxExponent : Int := 971

/-! ## Reading -/

/-- The quotient rounded to a whole number, a half to the even one. -/
def roundQuotient (num den : Nat) : Nat :=
  let d := num / den
  let r := num % den
  if den < 2 * r ∨ (2 * r = den ∧ d % 2 = 1) then d + 1 else d

/-- A power; a negative exponent counts as 0. -/
def power (base : Nat) (exp : Int) : Nat := Nat.pow base exp.toNat

/-- `num / den / 2^q` as a fraction of whole numbers. -/
def scale (num den : Nat) (q : Int) : Nat × Nat :=
  (num * power 2 (-q), den * power 2 q)

/-- The exponent at which the mantissa of a positive fraction has 53 bits,
or the least one for a number too small for that. -/
def exponentOf (num den : Nat) : Int :=
  let q : Int := num.log2 - den.log2 - 53
  let (n, d) := scale num den q
  max minExponent (if mantissaLimit ≤ n / d then q + 1 else q)

/-- The double nearest to a positive fraction, unless it is out of range. -/
def ofRatio? (num den : Nat) : Option Double :=
  let q := exponentOf num den
  let (n, d) := scale num den q
  let m := roundQuotient n d
  let x : Double := if m = mantissaLimit then ⟨m / 2, q + 1⟩ else ⟨m, q⟩
  if x.exponent ≤ maxExponent then some x else none

/-- The double nearest to `digits · 10^exp`, unless it is out of range.
Exponents far beyond the range are settled without their powers. -/
def ofDecimal? (digits : Nat) (exp : Int) : Option Double :=
  if digits = 0 then some ⟨0, minExponent⟩
  else
    let magnitude : Int := (Nat.toDigits 10 digits).length + exp
    if 400 < magnitude then none
    else if magnitude < -400 then some ⟨0, minExponent⟩
    else ofRatio? (digits * power 10 exp) (power 10 (-exp))

/-! ## Arithmetic -/

/-- The double nearest to a product, unless it is out of range. -/
def mul? (x y : Double) : Option Double :=
  let m := x.mantissa * y.mantissa
  let e := x.exponent + y.exponent
  if m = 0 then some ⟨0, minExponent⟩ else ofRatio? (m * power 2 e) (power 2 (-e))

/-! ## Showing -/

/-- A decimal number `digits · 10^exponent`. -/
structure Decimal where
  digits : Nat
  exponent : Int
  deriving DecidableEq, Repr

/-- The numbers that read back to a double, as multiples of a quarter of
its last place: the value itself and the two ends of the interval. Below a
power of two the doubles lie twice as close. -/
def interval (x : Double) : Nat × Nat × Nat :=
  let v := 4 * x.mantissa
  let narrow := x.mantissa = mantissaLimit / 2 ∧ minExponent < x.exponent
  (if narrow then v - 1 else v - 2, v, v + 2)

/-- The least `k` with `v · 2^u < 10^k`, for positive `v`. -/
def decimalMagnitude (v : Nat) (u : Int) : Int :=
  let k : Int := ((v.log2 : Int) + u) * 30103 / 100000 + 1
  if v * power 2 u * power 10 (-k) < power 10 k * power 2 (-u) then k
  else k + 1

/-- The multiple of `10^e` that reads back to a double and is nearest to
it. Only the two multiples next to the value need a look. -/
def nearestOn? (x : Double) (e : Int) : Option Decimal :=
  let u := x.exponent - 2
  let (low, v, high) := x.interval
  let grid := power 10 e * power 2 (-u)
  let unit := power 2 u * power 10 (-e)
  let inside (n : Nat) : Bool :=
    if x.mantissa % 2 = 0 then low * unit ≤ n * grid && n * grid ≤ high * unit
    else low * unit < n * grid && n * grid < high * unit
  let d := v * unit / grid
  match inside d, inside (d + 1) with
  | true, true =>
    if v * unit - d * grid < (d + 1) * grid - v * unit then some ⟨d, e⟩
    else some ⟨d + 1, e⟩
  | true, false => some ⟨d, e⟩
  | false, true => some ⟨d + 1, e⟩
  | false, false => none

/-- The shortest decimal that reads back to a double: the first hit on the
powers of ten from the one above the value downwards. The value has one
digit on the second of them and 17, which always suffice, on the last. -/
def shortest (x : Double) : Decimal :=
  if x.mantissa = 0 then ⟨0, 0⟩
  else
    let k := decimalMagnitude (4 * x.mantissa) (x.exponent - 2)
    let grids := (List.range 18).map fun (n : Nat) => k - n
    (grids.findSome? x.nearestOn?).getD ⟨0, 0⟩

/-- A decimal in positional notation, with a fractional part in any case. -/
def Decimal.positional (x : Decimal) : String :=
  let digits := Nat.toDigits 10 x.digits
  if 0 ≤ x.exponent then
    String.ofList (digits ++ List.replicate x.exponent.toNat '0') ++ ".0"
  else
    let places := (-x.exponent).toNat
    let padded := List.replicate (places + 1 - digits.length) '0' ++ digits
    let whole := padded.length - places
    String.ofList (padded.take whole ++ '.' :: padded.drop whole)

/-- A double as messages show it. -/
def display (negative : Bool) (x : Double) : String :=
  (if negative then "-" else "") ++ x.shortest.positional

end Double

end AdvisoryGate
