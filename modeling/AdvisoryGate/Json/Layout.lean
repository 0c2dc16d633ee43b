import AdvisoryGate.Json.Value

/-!
# Laid-out JSON

Writing a value with each item and each member on a line of its own, two
more columns in for each container around it. An empty container takes no
lines.
-/

namespace AdvisoryGate.Json

/-- A digit of a number up to 15. -/
def hexDigit (n : Nat) : Char := "0123456789abcdef".toList.getD n '0'

/-- A character as it is written inside a string. -/
def writeChar (c : Char) : List Char :=
  match c with
  | '"' => ['\\', '"']
  | '\\' => ['\\', '\\']
  | '\u0008' => ['\\', 'b']
  | '\u000c' => ['\\', 'f']
  | '\n' => ['\\', 'n']
  | '\r' => ['\\', 'r']
  | '\t' => ['\\', 't']
  | c =>
    if c.toNat < 0x20 then
      ['\\', 'u', '0', '0', hexDigit (c.toNat / 16), hexDigit (c.toNat % 16)]
    else [c]

/-- A string between quotes. -/
def writeString (s : String) : List Char := '"' :: s.toList.flatMap writeChar ++ ['"']

/-- A number: its digits, and its power of ten unless that is 1. -/
def writeNumber (negative : Bool) (x : Double.Decimal) : List Char :=
  (if negative then ['-'] else []) ++ Nat.toDigits 10 x.digits
    ++ (if x.exponent = 0 then [] else 'e' :: (toString x.exponent).toList)

/-- The start of a line at a depth. -/
def newLine (depth : Nat) : List Char := '\n' :: List.replicate (2 * depth) ' '

mutual

/-- A value inside so many containers. -/
def write (depth : Nat) : Value → List Char
  | .null => "null".toList
  | .boolean b => (if b then "true" else "false").toList
  | .number negative x => writeNumber negative x
  | .string s => writeString s
  | .array [] => ['[', ']']
  | .array (v :: vs) =>
    '[' :: newLine (depth + 1) ++ write (depth + 1) v ++ writeItems (depth + 1) vs
      ++ newLine depth ++ [']']
  | .object [] => ['\x7b', '\x7d']
  | .object ((name, v) :: ms) =>
    '\x7b' :: newLine (depth + 1) ++ writeString name ++ [':', ' '] ++ write (depth + 1) v
      ++ writeMembers (depth + 1) ms ++ newLine depth ++ ['\x7d']

/-- The items behind the first. -/
def writeItems (depth : Nat) : List Value → List Char
  | [] => []
  | v :: vs => ',' :: newLine depth ++ write depth v ++ writeItems depth vs

/-- The members behind the first. -/
def writeMembers (depth : Nat) : List (String × Value) → List Char
  | [] => []
  | (name, v) :: ms =>
    ',' :: newLine depth ++ writeString name ++ [':', ' '] ++ write depth v
      ++ writeMembers depth ms

end

/-- A value as a text. -/
def Value.layout (v : Value) : String := String.ofList (write 0 v)

end AdvisoryGate.Json
