import AdvisoryGate.Machine.Word

/-!
# Shell scripts

A part of the POSIX shell language, read line by line as a shell reads it:
what comes before a line that is no command has been carried out by then. So
`Script.ofText` answers the commands of a text and, behind them, the fault
that ends them. There are no functions and no commands in the background.
-/

namespace AdvisoryGate.Machine

/-! ## Tokens -/

/-- A change of the streams of a command. -/
inductive Redirection
  /-- What goes to stream `fd` goes where stream `target` goes. -/
  | copy (fd target : Nat)
  /-- What goes to stream `fd` goes to a file, perhaps behind what is there. -/
  | output (fd : Nat) (target : Word) (behind : Bool)
  | close (fd : Nat)
  /-- Input comes from a file. -/
  | input (source : Word)
  /-- Input is a text. -/
  | here (text : Word)
  deriving Repr

inductive Token.Kind
  | word (w : Word)
  | redirection (r : Redirection)
  | newline
  | semicolon
  | doubleSemicolon
  | background
  | both
  | either
  | pipe
  | opening
  | closing
  /-- The end of the text. -/
  | done
  /-- The text cannot be read on. -/
  | fault (f : SyntaxFault)
  deriving Repr

structure Token where
  kind : Token.Kind
  /-- The number of the line it is on. -/
  line : Nat
  deriving Repr

/-- The words with a meaning of their own where a command can begin. -/
def reservedWords : List String :=
  ["!", "case", "do", "done", "elif", "else", "esac", "fi", "for", "if", "in", "then", "until",
   "while", "\x7b", "\x7d"]

namespace Token

/-- The text of a token that can be a reserved word or a name. -/
def plain? (t : Token) : Option String :=
  match t.kind with
  | .word w => Word.plain? w
  | _ => none

/-- The token is a reserved word. -/
def isReserved (t : Token) (word : String) : Bool := t.plain? = some word

/-- The token in a message; a reserved word is named only where a command
can begin. -/
def display (atCommand : Bool) (t : Token) : String :=
  match t.kind with
  | .word w =>
    match Word.plain? w with
    | some s => if atCommand && reservedWords.contains s then "\"" ++ s ++ "\"" else "word"
    | none => "word"
  | .redirection _ => "redirection"
  | .newline => "newline"
  | .semicolon => "\";\""
  | .doubleSemicolon => "\";;\""
  | .background => "\"&\""
  | .both => "\"&&\""
  | .either => "\"||\""
  | .pipe => "\"|\""
  | .opening => "\"(\""
  | .closing => "\")\""
  | .done | .fault _ => "end of file"

end Token

def isBlank (c : Char) : Bool := c = ' ' || c = '\t'

/-! ## Reading tokens -/

/-- The lines up to one that is the delimiter, and what follows it. With
`tabs` the tabs that lines begin with are dropped. -/
def document (tabs : Bool) (delimiter : List Char) : Nat → List Char → List Char × List Char
  | 0, cs => ([], cs)
  | _ + 1, [] => ([], [])
  | n + 1, cs =>
    let line := cs.takeWhile (· ≠ '\n')
    let rest := cs.drop line.length
    let line := if tabs then line.dropWhile (· = '\t') else line
    if line = delimiter then ([], rest.drop 1)
    else
      let (text, below) := document tabs delimiter n (rest.drop 1)
      (line ++ rest.take 1 ++ text, below)

/-- The word behind an angle bracket. -/
def target (fuel : Nat) (cs : List Char) : Except SyntaxFault (Word × List Char) := do
  let cs := cs.dropWhile isBlank
  match ← Word.read fuel .bare cs with
  | ([], rest) =>
    .error (.unexpected (if rest.head? = some '\n' then "newline" else "end of file") none)
  | found => .ok found

/-- A text that stands on the lines below; what is left are the rest of this
line and what stands below the text. -/
def here (fuel : Nat) (cs : List Char) : Except SyntaxFault (Redirection × List Char) := do
  let (tabs, cs) := match cs with
    | '-' :: cs => (true, cs)
    | cs => (false, cs)
  let (w, rest) ← target fuel cs
  let line := rest.takeWhile (· ≠ '\n')
  let (text, below) :=
    document tabs (Word.literal w).toList (rest.length + 1) (rest.drop (line.length + 1))
  let text ← if w.any Piece.isQuoted then .ok [.text (String.ofList text) true]
    else Word.ofDocument text
  return (.here text, line ++ '\n' :: below)

/-- The redirection of stream `fd` at an angle bracket. -/
def redirection (fuel : Nat) (fd : Option Nat) (cs : List Char) :
    Except SyntaxFault (Redirection × List Char) :=
  let file (make : Word → Redirection) (cs : List Char) :=
    (target fuel cs).map fun (w, rest) => (make w, rest)
  let stream (fd : Nat) (cs : List Char) := do
    let (w, rest) ← target fuel cs
    match (Word.plain? w).map String.toList with
    | some ['-'] => .ok (Redirection.close fd, rest)
    | some [d] =>
      if d.isDigit then .ok (.copy fd (d.toNat - '0'.toNat), rest) else .error .badStream
    | _ => .error .badStream
  match cs with
  | '>' :: '&' :: rest => stream (fd.getD 1) rest
  | '>' :: '>' :: rest => file (.output (fd.getD 1) · true) rest
  | '>' :: '|' :: rest | '>' :: rest => file (.output (fd.getD 1) · false) rest
  | '<' :: '<' :: rest => here fuel rest
  | '<' :: '&' :: rest => stream (fd.getD 0) rest
  | '<' :: '>' :: rest | '<' :: rest => file .input rest
  | _ => .error (.unexpected "word" none)

/-- The operator at the beginning of a text. -/
def operator? : List Char → Option (Token.Kind × List Char)
  | '\n' :: r => some (.newline, r)
  | ';' :: ';' :: r => some (.doubleSemicolon, r)
  | ';' :: r => some (.semicolon, r)
  | '&' :: '&' :: r => some (.both, r)
  | '&' :: r => some (.background, r)
  | '|' :: '|' :: r => some (.either, r)
  | '|' :: r => some (.pipe, r)
  | '(' :: r => some (.opening, r)
  | ')' :: r => some (.closing, r)
  | _ => none

/-- The number of the stream before an angle bracket, and the bracket with
what follows it. -/
def stream? : List Char → Option (Option Nat × List Char)
  | '<' :: r => some (none, '<' :: r)
  | '>' :: r => some (none, '>' :: r)
  | d :: '<' :: r => if d.isDigit then some (some (d.toNat - '0'.toNat), '<' :: r) else none
  | d :: '>' :: r => if d.isDigit then some (some (d.toNat - '0'.toNat), '>' :: r) else none
  | _ => none

/-- The tokens of a text, which begins on the given line. -/
def tokens : Nat → Nat → List Char → List Token
  | 0, line, _ => [⟨.done, line⟩]
  | _ + 1, line, [] => [⟨.done, line⟩]
  | n + 1, line, c :: cs =>
    let go (kind : Token.Kind) (rest : List Char) : List Token :=
      let used := (c :: cs).take ((c :: cs).length - rest.length)
      ⟨kind, line⟩ :: tokens n (line + used.count '\n') rest
    if isBlank c then tokens n line cs
    else if c = '#' then tokens n line (cs.dropWhile (· ≠ '\n'))
    else
      match c, cs, operator? (c :: cs), stream? (c :: cs) with
      | '\\', '\n' :: rest, _, _ => tokens n (line + 1) rest
      | _, _, some (kind, rest), _ => go kind rest
      | _, _, none, some (fd, rest) =>
        match redirection (2 * cs.length + 4) fd rest with
        | .ok (r, rest) => go (.redirection r) rest
        | .error f => [⟨.fault f, line⟩]
      | _, _, none, none =>
        match Word.read (2 * cs.length + 4) .bare (c :: cs) with
        | .ok (w, rest) => go (.word w) rest
        | .error f => [⟨.fault f, line⟩]

/-! ## Scripts -/

inductive Script
  | nothing
  | simple (line : Nat) (words : List Word) (redirections : List Redirection)
  | seq (a b : Script)
  | both (a b : Script)
  | either (a b : Script)
  | pipe (a b : Script)
  | negate (a : Script)
  | choice (test yes no : Script)
  /-- For each item; without items, for each argument. -/
  | each (name : String) (items : Option (List Word)) (body : Script)
  /-- As long as the test succeeds, or fails. -/
  | loop (succeeds : Bool) (test body : Script)
  /-- The first clause with a pattern that matches. -/
  | select (subject : Word) (clauses : Script)
  | clause (patterns : List Word) (body others : Script)
  | group (body : Script) (redirections : List Redirection)
  | subshell (body : Script) (redirections : List Redirection)
  deriving Repr

namespace Script

/-- Reading ends with a fault and the line it is on. -/
abbrev Reading := Except (SyntaxFault × Nat)

/-- The first token is none that can stand there. -/
def unexpected {α : Type} (atCommand : Bool) (ts : List Token) (expecting : Option String) :
    Reading α :=
  match ts with
  | ⟨.fault f, line⟩ :: _ => .error (f, line)
  | t :: _ => .error (.unexpected (t.display atCommand) expecting, t.line)
  | [] => .error (.unexpected "end of file" expecting, 0)

/-- Drop the ends of lines before a command. -/
def skipLines : List Token → List Token
  | ⟨.newline, _⟩ :: ts => skipLines ts
  | ts => ts

/-- Take a reserved word. -/
def expect (word : String) (ts : List Token) : Reading (List Token) :=
  match ts with
  | t :: rest =>
    if t.isReserved word then .ok rest else unexpected true ts (some ("\"" ++ word ++ "\""))
  | [] => unexpected true ts (some ("\"" ++ word ++ "\""))

/-- The token closes a list. -/
def isCloser (t : Token) : Bool :=
  match t.kind with
  | .closing | .doubleSemicolon | .done => true
  | _ => ["then", "elif", "else", "fi", "do", "done", "esac", "\x7d"].any t.isReserved

/-- The words and redirections of a simple command, and what follows it. -/
def simpleParts : List Token → List Word × List Redirection × List Token
  | ⟨.word w, _⟩ :: ts =>
    let (ws, rs, rest) := simpleParts ts
    (w :: ws, rs, rest)
  | ⟨.redirection r, _⟩ :: ts =>
    let (ws, rs, rest) := simpleParts ts
    (ws, r :: rs, rest)
  | ts => ([], [], ts)

/-- The redirections at the beginning of the tokens. -/
def redirectionsOf : List Token → List Redirection × List Token
  | ⟨.redirection r, _⟩ :: ts =>
    let (rs, rest) := redirectionsOf ts
    (r :: rs, rest)
  | ts => ([], ts)

/-- A command in brackets of some kind, with the redirections behind it. -/
def grouped (body : Script) (ts : List Token) : Script × List Token :=
  let (rs, rest) := redirectionsOf ts
  (.group body rs, rest)

/-- A command without brackets of any kind. -/
def plainCommand (ts : List Token) : Reading (Script × List Token) :=
  let (ws, rs, rest) := simpleParts ts
  match rest with
  | ⟨.opening, _⟩ :: _ => unexpected true rest none
  | _ => .ok (.simple ((ts.head?.map Token.line).getD 0) ws rs, rest)

/-- The name and the items at the head of a loop. -/
def loopHead (ts : List Token) : Reading ((String × Option (List Word)) × List Token) :=
  match ts with
  | t :: rest =>
    match t.plain? with
    | some name =>
      if !isName name then .error (.badVariable, t.line)
      else
        match skipLines rest with
        | u :: items =>
          if u.isReserved "in" then
            match simpleParts items with
            | (ws, _, ⟨.semicolon, _⟩ :: rest) | (ws, _, ⟨.newline, _⟩ :: rest) =>
              .ok ((name, some ws), rest)
            | (_, _, rest) => unexpected false rest none
          else
            match rest with
            | ⟨.semicolon, _⟩ :: rest => .ok ((name, none), rest)
            | rest => .ok ((name, none), rest)
        | [] => .ok ((name, none), rest)
    | none => .error (.badVariable, t.line)
  | [] => .error (.badVariable, 0)

/-- The patterns of a clause, up to and with the bracket behind them. -/
def patternsOf : List Token → Reading (List Word × List Token)
  | ⟨.word w, _⟩ :: ⟨.pipe, _⟩ :: ts => (patternsOf ts).map fun (ws, rest) => (w :: ws, rest)
  | ⟨.word w, _⟩ :: ⟨.closing, _⟩ :: ts => .ok ([w], ts)
  | ⟨.word _, _⟩ :: ts => unexpected false ts (some "\")\"")
  | ts => unexpected false ts (some "\")\"")

mutual

/-- Commands one after the other. Inside of another command they go on over
the ends of lines up to what closes them, and there has to be one; at the
top they end with the line. -/
def list (inner started : Bool) : Nat → List Token → Reading (Script × List Token)
  | 0, ts => unexpected true ts none
  | n + 1, ts =>
    let ts := if inner then skipLines ts else ts
    match ts with
    | [] => .ok (.nothing, [])
    | t :: rest =>
      match t.kind with
      | .done => .ok (.nothing, t :: rest)
      | .newline => .ok (.nothing, rest)
      | _ =>
        if started && isCloser t && inner then .ok (.nothing, t :: rest)
        else do
          let (a, rest) ← chain n (t :: rest)
          match rest with
          | ⟨.semicolon, _⟩ :: rest =>
            let (b, rest) ← list inner true n rest
            return (.seq a b, rest)
          | ⟨.newline, _⟩ :: rest =>
            if inner then
              let (b, rest) ← list inner true n rest
              return (.seq a b, rest)
            else return (a, rest)
          | ⟨.done, line⟩ :: rest => return (a, ⟨.done, line⟩ :: rest)
          | rest => if inner then return (a, rest) else unexpected true rest none

/-- Pipelines that depend on each other. -/
def chain : Nat → List Token → Reading (Script × List Token)
  | 0, ts => unexpected true ts none
  | n + 1, ts => do
    let (a, rest) ← pipeline n ts
    chainFrom n a rest

def chainFrom : Nat → Script → List Token → Reading (Script × List Token)
  | 0, _, ts => unexpected true ts none
  | n + 1, a, ⟨.both, _⟩ :: rest => do
    let (b, rest) ← pipeline n (skipLines rest)
    chainFrom n (.both a b) rest
  | n + 1, a, ⟨.either, _⟩ :: rest => do
    let (b, rest) ← pipeline n (skipLines rest)
    chainFrom n (.either a b) rest
  | _ + 1, a, rest => .ok (a, rest)

def pipeline : Nat → List Token → Reading (Script × List Token)
  | 0, ts => unexpected true ts none
  | n + 1, ts =>
    match ts with
    | t :: rest =>
      if t.isReserved "!" then do
        let (a, rest) ← pipeline n rest
        return (.negate a, rest)
      else do
        let (a, rest) ← command n (t :: rest)
        match rest with
        | ⟨.pipe, _⟩ :: rest =>
          let (b, rest) ← pipeline n (skipLines rest)
          return (.pipe a b, rest)
        | _ => return (a, rest)
    | [] => unexpected true ts none

def command : Nat → List Token → Reading (Script × List Token)
  | 0, ts => unexpected true ts none
  | _ + 1, [] => unexpected true [] none
  | n + 1, t :: ts =>
    match t.kind, t.plain? with
    | .opening, _ => do
      let (a, rest) ← list true false n ts
      match rest with
      | ⟨.closing, _⟩ :: rest =>
        let (rs, rest) := redirectionsOf rest
        return (.subshell a rs, rest)
      | _ => unexpected true rest (some "\")\"")
    | .word _, some "\x7b" => do
      let (a, rest) ← list true false n ts
      return grouped a (← expect "\x7d" rest)
    | .word _, some "if" => do
      let (a, rest) ← branches n ts
      return grouped a rest
    | .word _, some "while" => loopBody true n ts
    | .word _, some "until" => loopBody false n ts
    | .word _, some "for" => do
      let ((name, items), rest) ← loopHead ts
      let (body, rest) ← list true false n (← expect "do" (skipLines rest))
      return grouped (.each name items body) (← expect "done" rest)
    | .word _, some "case" => do
      match ts with
      | ⟨.word subject, _⟩ :: rest =>
        let (a, rest) ← clauses n (skipLines (← expect "in" (skipLines rest)))
        return grouped (.select subject a) rest
      | _ => unexpected false ts (some "word")
    | .word _, some word =>
      if reservedWords.contains word then unexpected true (t :: ts) none
      else plainCommand (t :: ts)
    | .word _, none | .redirection _, _ => plainCommand (t :: ts)
    | _, _ => unexpected true (t :: ts) none

/-- What stands behind `while` or `until`. -/
def loopBody (succeeds : Bool) : Nat → List Token → Reading (Script × List Token)
  | 0, ts => unexpected true ts none
  | n + 1, ts => do
    let (test, rest) ← list true false n ts
    let (body, rest) ← list true false n (← expect "do" rest)
    return grouped (.loop succeeds test body) (← expect "done" rest)

/-- What stands behind `if` or `elif`, up to `fi`. -/
def branches : Nat → List Token → Reading (Script × List Token)
  | 0, ts => unexpected true ts none
  | n + 1, ts => do
    let (test, rest) ← list true false n ts
    let (yes, rest) ← list true false n (← expect "then" rest)
    match rest with
    | [] => unexpected true rest none
    | t :: rest =>
      if t.isReserved "else" then
        let (no, rest) ← list true false n rest
        return (.choice test yes no, ← expect "fi" rest)
      else if t.isReserved "elif" then
        let (no, rest) ← branches n rest
        return (.choice test yes no, rest)
      else return (.choice test yes .nothing, ← expect "fi" (t :: rest))

/-- The clauses of a choice by patterns, up to `esac`. -/
def clauses : Nat → List Token → Reading (Script × List Token)
  | 0, ts => unexpected true ts none
  | n + 1, ts =>
    match ts with
    | t :: rest =>
      if t.isReserved "esac" then .ok (.nothing, rest)
      else do
        let (patterns, rest) ← patternsOf
          (match t.kind with
            | .opening => rest
            | _ => t :: rest)
        let (body, rest) ← list true true n rest
        match rest with
        | ⟨.doubleSemicolon, _⟩ :: rest =>
          let (others, rest) ← clauses n (skipLines rest)
          return (.clause patterns body others, rest)
        | t :: after =>
          if t.isReserved "esac" then return (.clause patterns body .nothing, after)
          else unexpected true rest (some "\";;\"")
        | [] => unexpected true rest (some "\";;\"")
    | [] => unexpected true ts none

end

/-- The commands of a text line by line, and the fault that ends them. -/
def lines : Nat → List Token → List Script × Option (SyntaxFault × Nat)
  | 0, _ => ([], none)
  | n + 1, ts =>
    match ts with
    | [] | ⟨.done, _⟩ :: _ => ([], none)
    | _ =>
      match list false false (16 * ts.length + 16) ts with
      | .ok (s, rest) =>
        let (ss, fault) := lines n rest
        (s :: ss, fault)
      | .error fault => ([], some fault)

/-- The commands of a text, line by line. Each step of the reading takes a
token or goes one level down, and no token opens more than twelve levels. -/
def ofText (text : String) : List Script × Option (SyntaxFault × Nat) :=
  let ts := tokens (text.length + 2) 1 text.toList
  lines (ts.length + 1) ts

end Script

end AdvisoryGate.Machine
