/-!
# Widths

Which whole numbers a word of so many bits can hold, read with a sign or
without one.
-/

namespace AdvisoryGate.Width

/-- The number fits into a word of two's complement. -/
def fitsSigned (bits : Nat) (n : Int) : Bool :=
  -Int.ofNat (Nat.pow 2 (bits - 1)) ≤ n && n < Int.ofNat (Nat.pow 2 (bits - 1))

/-- The number fits into a word without a sign. -/
def fitsUnsigned (bits : Nat) (n : Int) : Bool := 0 ≤ n && n < Int.ofNat (Nat.pow 2 bits)

/-- The number fits into a word, if it is read in the right way. -/
def fits (bits : Nat) (n : Int) : Bool := fitsSigned bits n || fitsUnsigned bits n

end AdvisoryGate.Width
