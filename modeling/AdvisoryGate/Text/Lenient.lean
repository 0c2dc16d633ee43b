/-!
# Bytes read leniently

Bytes that claim to be text need not be UTF-8. `lenient` reads them all the
same: what is well-formed denotes its characters, and each longest beginning
of a character that is never completed, like each byte that can begin none,
is read as one replacement character.
-/

namespace AdvisoryGate.Text

/-- The character that stands for what is no text. -/
def replacement : Char := '\ufffd'

/-- The bits that the bytes of a character add to it so far, how many bytes
it lacks, and the range in which the next of them has to be. -/
structure PartialChar where
  value : Nat
  lacking : Nat
  low : UInt8
  high : UInt8
  deriving DecidableEq, Repr

/-- What a byte is the beginning of: a character on its own, the first byte
of one, or nothing. The ranges leave out surrogates, what lies beyond the
last code point, and characters spelled with more bytes than they need. -/
def beginning (b : UInt8) : List Char × Option PartialChar :=
  let n := b.toNat
  if n < 0x80 then ([Char.ofNat n], none)
  else if n < 0xc2 then ([replacement], none)
  else if n < 0xe0 then ([], some ⟨n - 0xc0, 1, 0x80, 0xbf⟩)
  else if n = 0xe0 then ([], some ⟨0, 2, 0xa0, 0xbf⟩)
  else if n = 0xed then ([], some ⟨0xd, 2, 0x80, 0x9f⟩)
  else if n < 0xf0 then ([], some ⟨n - 0xe0, 2, 0x80, 0xbf⟩)
  else if n = 0xf0 then ([], some ⟨0, 3, 0x90, 0xbf⟩)
  else if n < 0xf4 then ([], some ⟨n - 0xf0, 3, 0x80, 0xbf⟩)
  else if n = 0xf4 then ([], some ⟨4, 3, 0x80, 0x8f⟩)
  else ([replacement], none)

/-- What a byte adds behind the beginning of a character, if there is one. -/
def lenientStep (p : Option PartialChar) (b : UInt8) : List Char × Option PartialChar :=
  match p with
  | none => beginning b
  | some p =>
    if p.low ≤ b ∧ b ≤ p.high then
      let value := 0x40 * p.value + (b.toNat - 0x80)
      if p.lacking ≤ 1 then ([Char.ofNat value], none)
      else ([], some ⟨value, p.lacking - 1, 0x80, 0xbf⟩)
    else
      let (out, next) := beginning b
      (replacement :: out, next)

/-- The characters of the bytes behind the beginning of one. -/
def lenientFrom (p : Option PartialChar) : List UInt8 → List Char
  | [] => if p.isSome then [replacement] else []
  | b :: bs =>
    let (out, next) := lenientStep p b
    out ++ lenientFrom next bs

/-- The text that bytes denote. -/
def lenient (bytes : List UInt8) : String := String.ofList (lenientFrom none bytes)

end AdvisoryGate.Text
