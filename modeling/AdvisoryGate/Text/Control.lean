/-!
# Terminal controls

What is left of a text when the controls meant for a terminal are taken out
of it: escape sequences as a whole, and single controls other than blanks.
A message that repeats what a user wrote can then not drive the terminal on
which it is read.

A terminal takes a text byte by byte, and a string for it ends at the byte
`stringTerminator` wherever that stands, also within a character. A blank
inside a short sequence is carried out at once: it is left, and so is what
follows it up to the next control, where the sequence goes on.
-/

namespace AdvisoryGate.Text

/-- Where in a text we are: outside of all sequences or inside of one. -/
inductive Sequence
  | outside
  /-- Behind the escape character. -/
  | escape
  /-- Behind a mark after it, before the last character. -/
  | marked
  /-- Behind the bracket that introduces parameters. -/
  | parameters
  /-- Behind the letter that introduces a string for a device. -/
  | device
  /-- Behind a parameter of such a string. -/
  | deviceParameters
  /-- Behind a mark before the letter that begins its text. -/
  | deviceMarked
  /-- Inside the text of a string. -/
  | string
  /-- Inside a command for the system, which a bell ends. -/
  | command
  deriving DecidableEq, Repr

/-- Controls that move on like a blank. -/
def isBlankControl (c : Char) : Bool := c = '\t' || c = '\n' || c = '\x0c' || c = '\r'

def isControl (c : Char) : Bool := c.toNat < 0x20 || c = '\x7f'

def isAscii (c : Char) : Bool := c.toNat < 0x80

/-- The character stands between two others in the order of code points. -/
def within (first last : Nat) (c : Char) : Bool := first ≤ c.toNat && c.toNat ≤ last

/-- A character that may stand before the last one of a sequence. -/
def isMark (c : Char) : Bool := within 0x20 0x2f c

/-- The byte that ends a string. -/
def stringTerminator : UInt8 := 0x9c

/-- The bytes of the character hold the end of a string. -/
def endsString (c : Char) : Bool := (String.utf8EncodeChar c).contains stringTerminator

namespace Sequence

/-- Where the character behind the escape character leads. -/
def afterEscape (c : Char) : Sequence :=
  if c = '[' then .parameters
  else if c = ']' then .command
  else if c = 'P' then .device
  else if c = 'X' ∨ c = '^' ∨ c = '_' then .string
  else if isMark c then .marked
  else if isAscii c then .outside
  else .escape

/-- Where a character of the head of a string for a device leads. Such a
head has parameters and marks, in this order, and ends with a letter; what
stands in the wrong place makes the whole string meaningless, and ends its
head too. -/
def afterDevice (s : Sequence) (c : Char) : Sequence :=
  if isMark c then .deviceMarked
  else if s = .device ∧ within 0x30 0x3f c then .deviceParameters
  else if s = .deviceParameters ∧ within 0x30 0x3b c then .deviceParameters
  else if isAscii c then .string
  else s

/-- Where a character other than a control leads from inside a sequence. -/
def next (s : Sequence) (c : Char) : Sequence :=
  match s with
  | .outside => .outside
  | .escape => afterEscape c
  | .marked => if within 0x30 0x7e c then .outside else .marked
  | .parameters => if within 0x40 0x7e c then .outside else .parameters
  | .device | .deviceParameters | .deviceMarked => s.afterDevice c
  | .string => if endsString c then .outside else .string
  | .command => .command

/-- Controls are carried out inside the sequence, not part of it. -/
def obeysControls (s : Sequence) : Bool := s = .escape || s = .marked || s = .parameters

end Sequence

/-- What is known of a text that has been read up to some place. -/
structure Reading where
  sequence : Sequence
  /-- A blank has been left inside the sequence, and no control has come
  since. -/
  interrupted : Bool
  deriving DecidableEq, Repr

/-- Whether a character is left, and what is known behind it. -/
def Reading.step (r : Reading) (c : Char) : Bool × Reading :=
  if c = '\x1b' then (false, ⟨.escape, false⟩)
  else if c = '\x18' ∨ c = '\x1a' then (false, ⟨.outside, false⟩)
  else if r.sequence = .outside ∨ r.interrupted then
    if isControl c && !isBlankControl c then (false, ⟨r.sequence, false⟩)
    else (true, if isAscii c then r else ⟨.outside, false⟩)
  else if isControl c then
    if isBlankControl c && r.sequence.obeysControls then (true, ⟨r.sequence, true⟩)
    else (false, if c = '\x07' ∧ r.sequence = .command then ⟨.outside, false⟩ else r)
  else (false, ⟨r.sequence.next c, false⟩)

/-- What is left of the rest of a text. -/
def stripFrom (r : Reading) : List Char → List Char
  | [] => []
  | c :: cs =>
    let (isLeft, r) := r.step c
    if isLeft then c :: stripFrom r cs else stripFrom r cs

/-- The text without controls for a terminal. -/
def stripControls (s : String) : String := String.ofList (stripFrom ⟨.outside, false⟩ s.toList)

end AdvisoryGate.Text
