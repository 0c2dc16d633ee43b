import AdvisoryGate.Json.Text
import AdvisoryGate.Proofs.Spelling

/-!
# The grammar of JSON

What a JSON text is, said without the reader. A text has a `Tree`: what it
says, with members in their order and repeats kept, but without the spaces
between the tokens and the spellings of its strings. `Written` relates a
tree to the texts of it, and `Denotes` also allows spaces around them.

Not every tree has a value (`Tree.value?`). Containers may be nested too
deep, a number may be out of range, and a string may hold half of a
surrogate pair, which stands for no character. These are the limits of the
reader, and all of them.
-/

namespace AdvisoryGate.Json

/-! ## Trees -/

/-- A number as it is written: the digits before and behind the point, and
the exponent. -/
structure Numeral where
  negative : Bool
  whole : List Char
  fraction : List Char
  power : Int
  deriving DecidableEq

/-- What a text says. A string is `none` if it denotes no characters. -/
inductive Tree
  | null
  | boolean (b : Bool)
  | number (n : Numeral)
  | string (s : Option String)
  | array (items : List Tree)
  | object (members : List (Option String × Tree))

/-- A number, if its conversion stays in range. -/
def Numeral.value? (n : Numeral) : Option Value :=
  if isInRange (leading n.whole n.fraction n.power) then
    some (.number n.negative
      ⟨digitsValue (n.whole ++ n.fraction), n.power - n.fraction.length⟩)
  else none

mutual

/-- The value of a tree with at most so many containers inside each other. -/
def Tree.value? : Nat → Tree → Option Value
  | _, .null => some .null
  | _, .boolean b => some (.boolean b)
  | _, .number n => n.value?
  | _, .string s => s.map .string
  | 0, .array _ => none
  | 0, .object _ => none
  | depth + 1, .array items => (itemValues? depth items).map .array
  | depth + 1, .object members => (memberValues? depth members).map .object

def itemValues? (depth : Nat) : List Tree → Option (List Value)
  | [] => some []
  | t :: ts => do return (← t.value? depth) :: (← itemValues? depth ts)

def memberValues? (depth : Nat) : List (Option String × Tree) → Option (List (String × Value))
  | [] => some []
  | (name, t) :: ms => do
    return (← name, ← t.value? depth) :: (← memberValues? depth ms)

end

/-! ## Tokens -/

/-- Any number of spaces. -/
def Spaces (sp : List Char) : Prop := ∀ c ∈ sp, c ∈ [' ', '\t', '\n', '\r']

/-- A part of a string: a character, or a unit of two bytes by number. -/
inductive Piece
  | char (c : Char)
  | unit (n : Nat)

/-- The escapes of one letter, with what they denote. -/
def shortEscapes : List (Char × Char) :=
  [('"', '"'), ('\\', '\\'), ('/', '/'), ('b', '\u0008'), ('f', '\u000c'), ('n', '\n'),
   ('r', '\r'), ('t', '\t')]

/-- A way to write a part of a string. -/
inductive Spelled : Piece → List Char → Prop
  | plain {c : Char} : c ≠ '"' → c ≠ '\\' → 0x20 ≤ c.toNat → Spelled (.char c) [c]
  | short {letter c : Char} : (letter, c) ∈ shortEscapes → Spelled (.char c) ['\\', letter]
  | unit {ds : List Char} {ns : List Nat} : ds.length = 4 → List.Forall₂ Toml.IsHex ds ns →
      Spelled (.unit (Toml.hexValue 0 ns)) ('\\' :: 'u' :: ds)

/-- What stands between the quotes of a string. -/
inductive Body : List Piece → List Char → Prop
  | nil : Body [] []
  | cons {p : Piece} {ps : List Piece} {w ws : List Char} :
      Spelled p w → Body ps ws → Body (p :: ps) (w ++ ws)

/-- What a part adds to the characters of a string, and what then waits: the
first half of a surrogate pair, behind which only the second can stand. -/
def Piece.adds? : Option Nat → Piece → Option (List Char × Option Nat)
  | none, .char c => some ([c], none)
  | none, .unit n =>
    if isHigh n then some ([], some n) else (Text.scalar? n).map fun c => ([c], none)
  | some high, .unit n =>
    if isLow n then
      (Text.scalar? (0x10000 + 0x400 * (high - 0xd800) + (n - 0xdc00))).map fun c => ([c], none)
    else none
  | some _, .char _ => none

/-- The characters that the parts of a string denote. -/
def charsOf : Option Nat → List Piece → Option (List Char)
  | none, [] => some []
  | some _, [] => none
  | waiting, p :: ps => do
    let (out, waiting) ← p.adds? waiting
    return out ++ (← charsOf waiting ps)

/-- A string in quotes, and what it denotes. -/
def StringText (s : Option String) (w : List Char) : Prop :=
  ∃ ps body, Body ps body ∧ (charsOf none ps).map String.ofList = s ∧ w = '"' :: (body ++ ['"'])

/-- One or more digits. -/
def Digits (ds : List Char) : Prop := ds ≠ [] ∧ ∀ c ∈ ds, isDigit c = true

inductive FractionText : List Char → List Char → Prop
  | none : FractionText [] []
  | digits {ds : List Char} : Digits ds → FractionText ds ('.' :: ds)

inductive PowerText : Int → List Char → Prop
  | none : PowerText 0 []
  | bare {e : Char} {ds : List Char} : e = 'e' ∨ e = 'E' → Digits ds →
      PowerText (digitsValue ds) (e :: ds)
  | plus {e : Char} {ds : List Char} : e = 'e' ∨ e = 'E' → Digits ds →
      PowerText (digitsValue ds) (e :: '+' :: ds)
  | minus {e : Char} {ds : List Char} : e = 'e' ∨ e = 'E' → Digits ds →
      PowerText (-(digitsValue ds : Int)) (e :: '-' :: ds)

/-- A number without its sign; it begins with 0 only if that is all there is
before the point. -/
def UnsignedText (n : Numeral) (w : List Char) : Prop :=
  ∃ f p, Digits n.whole ∧ (n.whole.head? = some '0' → n.whole = ['0'])
    ∧ FractionText n.fraction f ∧ PowerText n.power p ∧ w = n.whole ++ (f ++ p)

def NumeralText (n : Numeral) (w : List Char) : Prop :=
  ∃ w', UnsignedText n w' ∧ w = (if n.negative then ['-'] else []) ++ w'

/-! ## Containers -/

/-- One or more pieces with commas between them and spaces around each. -/
inductive Row : List (List Char) → List Char → Prop
  | last {w sp sp' : List Char} : Spaces sp → Spaces sp' → Row [w] (sp ++ (w ++ sp'))
  | more {w sp sp' text : List Char} {ws : List (List Char)} : Spaces sp → Spaces sp' →
      Row ws text → Row (w :: ws) (sp ++ (w ++ (sp' ++ ',' :: text)))

/-- What stands between the brackets of a container. -/
inductive Inside : List (List Char) → List Char → Prop
  | none {sp : List Char} : Spaces sp → Inside [] sp
  | row {ws : List (List Char)} {text : List Char} : Row ws text → Inside ws text

/-- A member with its name, given the text of its value. -/
def MemberText (name : Option String) (value w : List Char) : Prop :=
  ∃ key sp sp', StringText name key ∧ Spaces sp ∧ Spaces sp'
    ∧ w = key ++ (sp ++ ':' :: (sp' ++ value))

/-- An item of an array, with its text. -/
structure Item where
  tree : Tree
  text : List Char

/-- A member of an object, with the text of its value and its own. -/
structure Member where
  name : Option String
  tree : Tree
  value : List Char
  text : List Char

/-! ## Texts -/

/-- A text of a tree, with no spaces around it. -/
inductive Written : Tree → List Char → Prop
  | null : Written .null ['n', 'u', 'l', 'l']
  | true : Written (.boolean .true) ['t', 'r', 'u', 'e']
  | false : Written (.boolean .false) ['f', 'a', 'l', 's', 'e']
  | number {n : Numeral} {w : List Char} : NumeralText n w → Written (.number n) w
  | string {s : Option String} {w : List Char} : StringText s w → Written (.string s) w
  | array {items : List Item} {inside : List Char} : (∀ i ∈ items, Written i.tree i.text) →
      Inside (items.map (·.text)) inside →
        Written (.array (items.map (·.tree))) ('[' :: (inside ++ [']']))
  | object {members : List Member} {inside : List Char} :
      (∀ m ∈ members, Written m.tree m.value) →
      (∀ m ∈ members, MemberText m.name m.value m.text) → Inside (members.map (·.text)) inside →
        Written (.object (members.map fun m => (m.name, m.tree)))
          ('\x7b' :: (inside ++ ['\x7d']))

/-- A whole text of a tree. -/
def Denotes (text : List Char) (t : Tree) : Prop :=
  ∃ sp w sp', Spaces sp ∧ Written t w ∧ Spaces sp' ∧ text = sp ++ (w ++ sp')

end AdvisoryGate.Json
