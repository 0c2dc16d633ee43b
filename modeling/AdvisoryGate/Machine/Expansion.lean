import AdvisoryGate.Machine.Pattern
import AdvisoryGate.Machine.State

/-!
# Expansion

What the words of a command become. First each piece of a word becomes
`Part`s, with parameters and commands replaced by their values. What is made of the parts depends on the place of the word: fields,
one text or a pattern.
-/

namespace AdvisoryGate.Machine

/-! ## Parts -/

inductive Part
  /-- A text; if it was quoted, it has no special characters, and if it is
  `split`, blanks in it end fields. -/
  | text (s : String) (quoted split : Bool)
  /-- Where one argument ends and the next begins. -/
  | border
  deriving DecidableEq, Repr

/-- The parts as one text. -/
def Part.join (ps : List Part) : String :=
  String.join (ps.map fun p => match p with
    | .text s _ _ => s
    | .border => " ")

/-- The parts as a pattern. -/
def Part.pattern (ps : List Part) : Pattern :=
  ps.flatMap fun p => match p with
    | .text s quoted _ => s.toList.map fun c => (c, quoted)
    | .border => [(' ', true)]

/-! ## Fields -/

/-- Fields in the making: those that are complete, and the one that is open
if there is one. -/
structure Fields where
  complete : List String := []
  unfinished : Option String := none

namespace Fields

/-- Add to the open field, which is opened if need be. -/
def extend (f : Fields) (s : String) : Fields :=
  { f with unfinished := some (f.unfinished.getD "" ++ s) }

/-- End the open field. -/
def close (f : Fields) : Fields := ⟨f.complete ++ f.unfinished.toList, none⟩

/-- Add a character of a text that blanks split. -/
def split (f : Fields) (c : Char) : Fields :=
  if c = ' ' || c = '\t' || c = '\n' then f.close else f.extend (toString c)

/-- Add a part. -/
def add (f : Fields) : Part → Fields
  | .text s _ false => f.extend s
  | .text s _ true => s.toList.foldl split f
  | .border => f.close

end Fields

/-- The fields that parts become. -/
def Part.fields (ps : List Part) : List String := (ps.foldl Fields.add {}).close.complete

/-! ## Parameters -/

/-- The value of a parameter that has one. -/
def State.value? (s : State) : Param → Option String
  | .named name => s.bindings.lookup name
  | .positional 0 => some s.name
  | .positional (n + 1) => s.arguments[n]?
  | .all _ =>
    if s.arguments.isEmpty then none else some (" ".intercalate s.arguments)
  | .count => some (toString s.arguments.length)
  | .status => some (toString s.status)
  | .process => some (toString s.process)

/-- Arguments as parts, with borders between them. -/
def bordered (part : String → Part) : List String → List Part
  | [] => []
  | [s] => [part s]
  | s :: ss => part s :: .border :: bordered part ss

/-- The parts that a parameter becomes. -/
def State.partsOf (s : State) (p : Param) (quoted : Bool) : List Part :=
  let text (t : String) : Part := .text t quoted (!quoted)
  match p with
  | .all true =>
    if quoted then [text (" ".intercalate s.arguments)] else bordered text s.arguments
  | .all false => bordered text s.arguments
  | _ => [text ((s.value? p).getD "")]

namespace Act

/-- What a command writes, without the ends of lines behind it. -/
def outputOf (k : Kernel) (command : String) : Act String := do
  let (ending, text) ← capture (isolated (k.evaluate false command))
  let old ← get
  bury ending
  modify fun s => { s with substituted := s.status, status := old.status }
  return String.ofList ((text.toList.reverse.dropWhile (· = '\n')).reverse)

/-- The parts of an operand outside of quotes are split like a value. -/
def asValue (quoted : Bool) (ps : List Part) : List Part :=
  ps.map fun p => match p with
    | .text s false _ => .text s quoted (!quoted)
    | p => p

mutual

/-- The parts that a piece becomes. -/
def parts (k : Kernel) : Piece → Act (List Part)
  | .text s quoted => return [.text s quoted false]
  | .value p quoted => return (← get).partsOf p quoted
  | .fallback p blank other quoted => do
    let s ← get
    let value := s.value? p
    if value = none || (blank && value = some "") then
      return asValue quoted (← partsOfWord k other)
    else return s.partsOf p quoted
  | .output command quoted => return [.text (← outputOf k command) quoted (!quoted)]
  | .invalid => fail "Bad substitution"

/-- The parts that a word becomes. -/
def partsOfWord (k : Kernel) : List Piece → Act (List Part)
  | [] => return []
  | p :: ps => do
    let before ← parts k p
    return before ++ (← partsOfWord k ps)

end

/-- The text that a word becomes where it is not split. -/
def text (k : Kernel) (w : Word) : Act String := return Part.join (← partsOfWord k w)

/-- The pattern that a word becomes. -/
def pattern (k : Kernel) (w : Word) : Act Pattern := return Part.pattern (← partsOfWord k w)

/-- The fields that a word becomes. -/
def fields (k : Kernel) (w : Word) : Act (List String) := return Part.fields (← partsOfWord k w)

/-- The fields that words become. -/
def fieldsOf (k : Kernel) : List Word → Act (List String)
  | [] => return []
  | w :: ws => do
    let before ← fields k w
    return before ++ (← fieldsOf k ws)

end Act

end AdvisoryGate.Machine
