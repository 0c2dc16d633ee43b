/-!
# Blank text

The 25 characters with the Unicode property `White_Space`, and the cut
that takes them off both ends of a text. What stays is empty exactly when
the text is blank, and otherwise begins and ends with a visible character.

Look-alikes without the property (`U+200B`, `U+FEFF`, `U+2800`, …) are
ordinary characters here and are never cut.
-/

namespace AdvisoryGate.Text

/-- The characters with the property `White_Space`, in ascending order. -/
def blanks : List Char :=
  ['\t', '\n', '\u000b', '\u000c', '\r', ' ', '\u0085', '\u00a0', '\u1680',
   '\u2000', '\u2001', '\u2002', '\u2003', '\u2004', '\u2005', '\u2006',
   '\u2007', '\u2008', '\u2009', '\u200a', '\u2028', '\u2029', '\u202f',
   '\u205f', '\u3000']

def isBlankChar (c : Char) : Bool := blanks.contains c

/-- Every character of the text is blank; the empty text is blank too. -/
def isBlank (s : String) : Bool := s.toList.all isBlankChar

/-- Drop the blanks at the start. -/
def trimStart (cs : List Char) : List Char := cs.dropWhile isBlankChar

/-- Drop the blanks at the end. -/
def trimEnd (cs : List Char) : List Char := (trimStart cs.reverse).reverse

/-- The text without the blanks at its two ends; blanks inside it stay. -/
def trim (s : String) : String := String.ofList (trimEnd (trimStart s.toList))

end AdvisoryGate.Text
