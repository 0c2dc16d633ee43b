/-!
# Spaces, comments and line ends

What a TOML document holds between its keys and values. A line break is LF
or CRLF, and nothing else; spaces are the space and the tab, and nothing
else. Controls other than the tab have no place in a document, not even in
a comment.

Every reader of this folder takes the remaining text and answers what it
read and what then remains, or nothing if the text is not TOML.
-/

namespace AdvisoryGate.Toml

/-- The character separates the words of a line. -/
def isSpace (c : Char) : Bool := c = ' ' || c = '\t'

/-- The character may stand in a comment, and unescaped in a string on one
line. -/
def isPlain (c : Char) : Bool :=
  c = '\t' || (0x20 ≤ c.toNat && c.toNat ≠ 0x7f)

def skipSpaces (cs : List Char) : List Char := cs.dropWhile isSpace

/-- What follows a line break. -/
def lineBreak? : List Char → Option (List Char)
  | '\n' :: r => some r
  | '\r' :: '\n' :: r => some r
  | _ => none

/-- What follows a line break or the end of the text. -/
def breakOrEnd? : List Char → Option (List Char)
  | [] => some []
  | cs => lineBreak? cs

/-- What follows the rest of a line that holds nothing but spaces and
perhaps a comment. -/
def lineEnd? (cs : List Char) : Option (List Char) :=
  match skipSpaces cs with
  | '#' :: r => breakOrEnd? (r.dropWhile isPlain)
  | r => breakOrEnd? r

/-- What follows any number of spaces, line breaks and comments; the flag
tells whether the text begins inside a comment. -/
def skipGap (inComment : Bool) : List Char → Option (List Char)
  | [] => some []
  | '\n' :: r => skipGap false r
  | '\r' :: '\n' :: r => skipGap false r
  | c :: r =>
    if inComment then
      if isPlain c then skipGap true r else none
    else if isSpace c then skipGap false r
    else if c = '#' then skipGap true r
    else some (c :: r)

end AdvisoryGate.Toml
