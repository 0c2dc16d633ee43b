/-!
# Words for a shell

How a word is written so that a POSIX shell reads it back unchanged. A
word of harmless characters stands as it is; any other word, the empty one
included, is put between single quotes, and a single quote inside it is
written `'\''`: close, an escaped quote, open again.
-/

namespace AdvisoryGate.Shell

/-- The character means itself to a shell wherever it stands unquoted. -/
def isInert (c : Char) : Bool := c.isAlphanum || "-_./=:,+@%".toList.contains c

/-- One character between single quotes. -/
def escapeQuote (c : Char) : List Char :=
  if c = '\'' then ['\'', '\\', '\'', '\''] else [c]

/-- The characters of a word as it is written for a shell. -/
def writeWord (cs : List Char) : List Char :=
  if !cs.isEmpty && cs.all isInert then cs
  else '\'' :: cs.flatMap escapeQuote ++ ['\'']

/-- A word as it is written for a shell. -/
def word (s : String) : String := String.ofList (writeWord s.toList)

/-- A command line: the words, one space between each two. -/
def line (words : List String) : String := " ".intercalate (words.map word)

end AdvisoryGate.Shell
