import AdvisoryGate.Text.Order
import AdvisoryGate.Toml.Value

/-!
# Excerpts

How a message points at a part of a text: the number of its line and
column, the whole line, and below it one caret for each byte of the part,
as far as the line goes and at least one.
-/

namespace AdvisoryGate.Toml

/-- The text up to a place. -/
def textBefore (text : List Char) (span : Span) : List Char :=
  text.take (text.length - span.start.length)

/-- The text of a span. -/
def Span.text (span : Span) : List Char :=
  span.start.take (span.start.length - span.stop.length)

/-- The message that something is wrong with a part of a text. -/
def excerpt (text : List Char) (span : Span) (what : String) : String :=
  let before := textBefore text span
  let number := toString (before.count '\n' + 1)
  let indent := (before.reverse.takeWhile (· ≠ '\n')).reverse
  let line := indent ++ span.start.takeWhile (· ≠ '\n')
  let room := Text.byteSize line - indent.length
  let carets := max 1 (min (Text.byteSize span.text) room)
  let spaces (n : Nat) := String.ofList (List.replicate n ' ')
  let gutter := spaces (number.length + 1) ++ "|"
  "TOML parse error at line " ++ number ++ ", column " ++ toString (indent.length + 1) ++ "\n"
    ++ gutter ++ "\n"
    ++ number ++ " | " ++ String.ofList line ++ "\n"
    ++ gutter ++ spaces (indent.length + 1) ++ String.ofList (List.replicate carets '^') ++ "\n"
    ++ what ++ "\n"

end AdvisoryGate.Toml
