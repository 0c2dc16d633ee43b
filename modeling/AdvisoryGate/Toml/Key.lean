import AdvisoryGate.Toml.Value
import AdvisoryGate.Toml.Text

/-!
# TOML keys

A key is a bare word or a string on one line. Keys joined by dots form a
path, with spaces allowed around the dots.
-/

namespace AdvisoryGate.Toml

/-- The character can be part of a bare key. -/
def isBare (c : Char) : Bool := c.isAlphanum || c = '_' || c = '-'

/-- The most parts that a path can have, and the most containers that can
stand inside each other. -/
def maxDepth : Nat := 80

/-- A key. -/
def key? (cs : List Char) : Option (Key × List Char) :=
  let (bare, r) := cs.span isBare
  if bare.isEmpty then
    (lineString? cs).map fun (name, r) => (⟨name, cs, r⟩, r)
  else some (⟨.ofList bare, cs, r⟩, r)

/-- A path of at most so many keys. -/
def path? : Nat → List Char → Option (List Key × List Char)
  | 0, _ => none
  | n + 1, cs => do
    let (k, r) ← key? cs
    match skipSpaces r with
    | '.' :: r =>
      let (ks, r) ← path? n (skipSpaces r)
      return (k :: ks, r)
    | _ => return ([k], r)

end AdvisoryGate.Toml
