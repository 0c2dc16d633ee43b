import AdvisoryGate.Text.Verbatim

/-!
# Quoted text

The form in which messages show a text whose exact characters matter: in
double quotes on one line, with short escapes for the common controls and
`\u{…}` (lower-case hexadecimal, no leading zeros) for every other
character that would not be visible.
-/

namespace AdvisoryGate.Text

/-- The letter of a two-character escape. -/
def shortEscape? : Char → Option Char
  | '\x00' => some '0'
  | '\t' => some 't'
  | '\n' => some 'n'
  | '\r' => some 'r'
  | '"' => some '"'
  | '\\' => some '\\'
  | _ => none

/-- The lower-case hexadecimal digits of a number. -/
def hex (n : Nat) : List Char := Nat.toDigits 16 n

/-- One character as it stands between the quotes. -/
def quoteChar (c : Char) : List Char :=
  match shortEscape? c with
  | some letter => ['\\', letter]
  | none =>
    if isVerbatim c then [c]
    else ['\\', 'u', '\x7b'] ++ hex c.toNat ++ ['\x7d']

/-- The text in double quotes, with its invisible characters escaped. -/
def quoted (s : String) : String :=
  String.ofList ('"' :: s.toList.flatMap quoteChar ++ ['"'])

end AdvisoryGate.Text
