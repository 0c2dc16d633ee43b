/-!
# Words of the shell

A word of a script is kept as its pieces, because what becomes of a
parameter depends on whether it was quoted. `Word.read` takes a word off a
text. The texts of commands whose output is to be put in place are found by
their brackets and read when they are run. Of what can be made of a
parameter only the text that stands in for it is known, and there are no
arithmetic expressions.
-/

namespace AdvisoryGate.Machine

/-! ## Faults -/

/-- Why a text is not a script. -/
inductive SyntaxFault
  | unterminated
  | openBackquote
  | missing (closing : String)
  | badVariable
  | badStream
  | unexpected (token : String) (expecting : Option String)
  deriving DecidableEq, Repr

def SyntaxFault.message : SyntaxFault → String
  | .unterminated => "Unterminated quoted string"
  | .openBackquote => "EOF in backquote substitution"
  | .missing closing => "Missing '" ++ closing ++ "'"
  | .badVariable => "Bad for loop variable"
  | .badStream => "Bad fd number"
  | .unexpected token none => token ++ " unexpected"
  | .unexpected token (some other) => token ++ " unexpected (expecting " ++ other ++ ")"

/-! ## Parameters -/

/-- What a dollar sign can name. -/
inductive Param
  | named (name : String)
  | positional (n : Nat)
  /-- All arguments; `joined` if they are to make up one word. -/
  | all (joined : Bool)
  | count
  | status
  | process
  deriving DecidableEq, Repr

def isNameStart (c : Char) : Bool := c.isAlpha || c = '_'

def isNameChar (c : Char) : Bool := c.isAlphanum || c = '_'

def isName (s : String) : Bool :=
  match s.toList with
  | [] => false
  | c :: cs => isNameStart c && cs.all isNameChar

/-- The parameter that one character names. -/
def Param.ofChar? (c : Char) : Option Param :=
  match c with
  | '@' => some (.all false)
  | '*' => some (.all true)
  | '#' => some .count
  | '?' => some .status
  | '$' => some .process
  | _ => if c.isDigit then some (.positional (c.toNat - '0'.toNat)) else none

/-- The parameter at the beginning of a text; only between braces does a
number have several digits. -/
def Param.read? (braced : Bool) (cs : List Char) : Option (Param × List Char) :=
  match cs with
  | [] => none
  | c :: r =>
    if isNameStart c then
      some (.named (String.ofList (cs.takeWhile isNameChar)), cs.dropWhile isNameChar)
    else if braced && c.isDigit then
      some (.positional ((String.ofList (cs.takeWhile Char.isDigit)).toNat?.getD 0),
        cs.dropWhile Char.isDigit)
    else (Param.ofChar? c).map fun p => (p, r)

/-- The mark behind a parameter that a text stands in for where it has no
value; with a colon the text stands in for an empty value too. -/
def fallback? : List Char → Option (Bool × List Char)
  | ':' :: '-' :: r => some (true, r)
  | '-' :: r => some (false, r)
  | _ => none

/-! ## Pieces -/

/-- A piece of a word. -/
inductive Piece
  | text (s : String) (quoted : Bool)
  | value (p : Param) (quoted : Bool)
  /-- A value, or what stands in for it. -/
  | fallback (p : Param) (blank : Bool) (other : List Piece) (quoted : Bool)
  /-- What a command writes. -/
  | output (command : String) (quoted : Bool)
  /-- A use of a parameter that there is not. -/
  | invalid
  deriving Repr

abbrev Word := List Piece

def Piece.isQuoted : Piece → Bool
  | .text _ quoted | .value _ quoted | .fallback _ _ _ quoted | .output _ quoted => quoted
  | .invalid => false

/-- The text of a word of plain characters. -/
def Word.plain? : Word → Option String
  | [] => some ""
  | .text s false :: w => (Word.plain? w).map (s ++ ·)
  | _ :: _ => none

/-- The texts in a word, quoted or not. -/
def Word.literal (w : Word) : String :=
  String.join (w.map fun p => match p with
    | .text s _ => s
    | _ => "")

/-- The name behind which an equals sign stands in front of everything else,
and what follows it; `before` is what has been seen of the name. -/
def Word.assignmentFrom? (before : String) : Word → Option (String × Word)
  | .text "=" false :: w => if isName before then some (before, w) else none
  | .text s false :: w => Word.assignmentFrom? (before ++ s) w
  | _ => none

/-- The assignment that a word is. -/
def Word.assignment? (w : Word) : Option (String × Word) := Word.assignmentFrom? "" w

/-! ## Finding the end -/

/-- The kind of quotes that are open. -/
inductive Quotes
  | none
  | single
  | double
  deriving DecidableEq, Repr

/-- What stands before the bracket that closes the one before the text, and
what follows it. Brackets in quotes or behind a backslash do not count. -/
def enclosed? : Nat → Quotes → Bool → List Char → Option (List Char × List Char)
  | _, _, _, [] => none
  | depth, quotes, escaped, c :: cs =>
    let go (depth : Nat) (quotes : Quotes) (escaped : Bool) :=
      (enclosed? depth quotes escaped cs).map fun (inner, rest) => (c :: inner, rest)
    if escaped then go depth quotes false
    else
      match quotes with
      | .single => go depth (if c = '\'' then .none else .single) false
      | .double => go depth (if c = '"' then .none else .double) (c = '\\')
      | .none =>
        if c = ')' then
          if depth = 0 then some ([], cs) else go (depth - 1) .none false
        else if c = '(' then go (depth + 1) .none false
        else if c = '\'' then go depth .single false
        else if c = '"' then go depth .double false
        else go depth .none (c = '\\')

/-- What stands before the next backquote, and what follows it. A backslash
keeps its meaning only where it does not escape. -/
def backquoted? (quoted : Bool) : List Char → Option (List Char × List Char)
  | [] => none
  | '`' :: cs => some ([], cs)
  | ['\\'] => none
  | '\\' :: c :: cs =>
    let kept := if "$`\\".toList.contains c || (quoted && c = '"') then [c] else ['\\', c]
    (backquoted? quoted cs).map fun (inner, rest) => (kept ++ inner, rest)
  | c :: cs => (backquoted? quoted cs).map fun (inner, rest) => (c :: inner, rest)

/-! ## Reading -/

/-- Where a word stands, which decides where it ends. -/
inductive Place
  /-- Among others, up to a blank or an operator. -/
  | bare
  /-- Between double quotes. -/
  | quotes
  /-- Between braces, perhaps within double quotes. -/
  | braces (quoted : Bool)
  /-- In a text of its own, which is as if it were quoted. -/
  | document
  deriving DecidableEq, Repr

def Place.isQuoted : Place → Bool
  | .bare | .braces false => false
  | .quotes | .braces true | .document => true

/-- Characters that end an unquoted word. -/
def isDelimiter (c : Char) : Bool := " \t\n;&|<>()".toList.contains c

/-- The character closes the place. -/
def Place.isClosing (p : Place) (c : Char) : Bool :=
  match p with
  | .bare => isDelimiter c
  | .quotes => c = '"'
  | .braces _ => c = '\x7d'
  | .document => false

/-- What becomes of a place at the end of the text. -/
def Place.atEnd : Place → Except SyntaxFault Unit
  | .bare | .document => .ok ()
  | .quotes => .error .unterminated
  | .braces _ => .error (.missing "\x7d")

/-- Characters that a backslash escapes in a place. -/
def Place.isEscapable (p : Place) (c : Char) : Bool :=
  match p with
  | .bare | .braces false => true
  | .quotes => "$`\"\\".toList.contains c
  | .braces true => "$`\"\\\x7d".toList.contains c
  | .document => "$`\\".toList.contains c

mutual

/-- The pieces up to the end of a place, and what follows it. -/
def Word.read : Nat → Place → List Char → Except SyntaxFault (Word × List Char)
  | 0, _, _ => .error .unterminated
  | _ + 1, place, [] => place.atEnd.map fun _ => ([], [])
  | n + 1, place, c :: cs =>
    let quoted := place.isQuoted
    let go (p : Piece) (rest : List Char) :=
      (Word.read n place rest).map fun (w, r) => (p :: w, r)
    if place.isClosing c then .ok ([], if place = .bare then c :: cs else cs)
    else
      match c, cs with
      | '\\', '\n' :: rest => Word.read n place rest
      | '\\', d :: rest =>
        if place.isEscapable d then go (.text (toString d) true) rest else go (.text "\\" true) cs
      | '$', _ =>
        match Piece.read? n quoted cs with
        | .ok (some (p, rest)) => go p rest
        | .ok none => go (.text "$" quoted) cs
        | .error fault => .error fault
      | '`', _ =>
        match backquoted? quoted cs with
        | some (inner, rest) => go (.output (String.ofList inner) quoted) rest
        | none => .error .openBackquote
      | '\'', _ =>
        if quoted then go (.text "'" true) cs
        else
          match cs.dropWhile (· ≠ '\'') with
          | [] => .error .unterminated
          | _ :: rest => go (.text (String.ofList (cs.takeWhile (· ≠ '\''))) true) rest
      | '"', _ =>
        if place = .document then go (.text "\"" true) cs
        else if quoted then Word.read n place cs
        else do
          let (inner, rest) ← Word.read n .quotes cs
          -- Quotes make a field even around nothing, but not around no arguments.
          let marks : Word := match inner with
            | [.value (.all false) _] => []
            | _ => [.text "" true]
          let (w, r) ← Word.read n place rest
          return (marks ++ inner ++ w, r)
      | _, _ => go (.text (toString c) quoted) cs

/-- The piece behind a dollar sign, unless the sign stands for itself. -/
def Piece.read? : Nat → Bool → List Char → Except SyntaxFault (Option (Piece × List Char))
  | 0, _, _ => .error .unterminated
  | _ + 1, quoted, '(' :: cs =>
    match enclosed? 0 .none false cs with
    | some (inner, rest) => .ok (some (.output (String.ofList inner) quoted, rest))
    | none => .error (.unexpected "end of file" (some "\")\""))
  | n + 1, quoted, '\x7b' :: cs =>
    match Param.read? true cs with
    | none => do
      let (_, rest) ← Word.read n (.braces quoted) cs
      return some (.invalid, rest)
    | some (p, '\x7d' :: rest) => .ok (some (.value p quoted, rest))
    | some (p, rest) =>
      match fallback? rest with
      | none => do
        let (_, rest) ← Word.read n (.braces quoted) rest
        return some (.invalid, rest)
      | some (blank, rest) => do
        let (other, rest) ← Word.read n (.braces quoted) rest
        return some (.fallback p blank other quoted, rest)
  | _ + 1, quoted, cs => .ok ((Param.read? false cs).map fun (p, r) => (.value p quoted, r))

end

/-- The pieces of a text that is a document of its own. -/
def Word.ofDocument (cs : List Char) : Except SyntaxFault Word :=
  (Word.read (2 * cs.length + 2) .document cs).map (·.1)

end AdvisoryGate.Machine
