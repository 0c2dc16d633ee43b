/-!
# Patterns

What a shell matches texts with: `*` stands for any text, `?` for any
character and brackets for one of several. A character that was quoted
stands for itself.
-/

namespace AdvisoryGate.Machine

/-- The characters of a pattern, and whether each was quoted. -/
abbrev Pattern := List (Char × Bool)

namespace Pattern

/-- The characters between brackets as ranges, up to and with the closing
bracket, and what follows it. -/
def ranges? : Nat → Pattern → Option (List (Char × Char) × Pattern)
  | 0, _ => none
  | _ + 1, [] => none
  | _ + 1, (']', false) :: p => some ([], p)
  | n + 1, (a, _) :: ('-', false) :: (b, quoted) :: p =>
    if b = ']' ∧ !quoted then
      some ([(a, a), ('-', '-')], p)
    else (ranges? n p).map fun (rs, p) => ((a, b) :: rs, p)
  | n + 1, (a, _) :: p => (ranges? n p).map fun (rs, p) => ((a, a) :: rs, p)

/-- What stands behind an opening bracket: whether the characters are those
that do not match, and their ranges. A bracket that comes first does not
close. -/
def set? (p : Pattern) : Option ((Bool × List (Char × Char)) × Pattern) :=
  let (negated, p) := match p with
    | ('!', false) :: p => (true, p)
    | p => (false, p)
  match p with
  | (']', false) :: p' =>
    (ranges? (p.length + 1) p').map fun (rs, r) => ((negated, (']', ']') :: rs), r)
  | _ => (ranges? (p.length + 1) p).map fun (rs, r) => ((negated, rs), r)

/-- All ends of a text, the text itself first. -/
def ends : List Char → List (List Char)
  | [] => [[]]
  | c :: cs => (c :: cs) :: ends cs

/-- The pattern matches the text; the first argument bounds its length. -/
def matchFrom : Nat → Pattern → List Char → Bool
  | 0, _, _ => false
  | _ + 1, [], cs => cs.isEmpty
  | n + 1, ('*', false) :: p, cs => (ends cs).any (matchFrom n p)
  | _ + 1, _, [] => false
  | n + 1, ('?', false) :: p, _ :: cs => matchFrom n p cs
  | n + 1, ('[', false) :: p, c :: cs =>
    match set? p with
    | some ((negated, ranges), p) =>
      (ranges.any fun (a, b) => a ≤ c && c ≤ b) != negated && matchFrom n p cs
    | none => c == '[' && matchFrom n p cs
  | n + 1, (d, _) :: p, c :: cs => c == d && matchFrom n p cs

def isMatch (p : Pattern) (cs : List Char) : Bool := matchFrom (p.length + 1) p cs

end Pattern

end AdvisoryGate.Machine
