/-!
# The order of texts

Texts are ordered by their UTF-8 bytes; the first difference decides, and
a text comes before every longer one that begins with it.
-/

namespace AdvisoryGate.Text

/-- The bytes of a text in UTF-8. -/
def bytes (s : String) : List UInt8 := s.toList.flatMap String.utf8EncodeChar

/-- The order of two byte strings. -/
def compareBytes : List UInt8 → List UInt8 → Ordering
  | [], [] => .eq
  | [], _ :: _ => .lt
  | _ :: _, [] => .gt
  | x :: xs, y :: ys =>
    if x < y then .lt else if y < x then .gt else compareBytes xs ys

/-- The order of two texts. -/
def order (a b : String) : Ordering := compareBytes (bytes a) (bytes b)

/-- The size of a text in UTF-8. -/
def byteSize (cs : List Char) : Nat := (cs.flatMap String.utf8EncodeChar).length

end AdvisoryGate.Text
