import AdvisoryGate.Disk
import AdvisoryGate.Machine.Condition
import AdvisoryGate.Machine.Format

/-!
# Utilities

The small programs that every machine has: what they write, and the code
they exit with. They see the name they were called by, their arguments,
their input and the files of their machine. A shell has some of them built
in, where they know other options and complain in other words.
-/

namespace AdvisoryGate.Machine

/-- What a command has written, in order: the stream and the text. -/
abbrev Written := List (Nat × String)

/-- How a utility ended: what it wrote and its exit code. -/
abbrev Done := Written × Nat

namespace Utility

/-! ## Files -/

/-- The path of the directory in which everything runs. -/
def here (d : Disk) : String := "/" ++ "/".intercalate d.here

/-- The text of a file, with replacements for what is not text. -/
def read (d : Disk) (path : String) : Except SystemError String :=
  (d.readBytes path).map fun content => Text.lenient content.data.toList

/-- What conditions ask about a path. -/
def facts (d : Disk) (path : String) : PathFacts :=
  match d.find path with
  | .ok .directory => ⟨true, true, false, true⟩
  | .ok (.file content executable) => ⟨true, false, content.size = 0, executable⟩
  | .error _ => ⟨false, false, true, false⟩

/-! ## Options -/

/-- What helps those who have called a program in a wrong way. -/
def tryHelp (program : String) : String :=
  "Try '" ++ program ++ " --help' for more information.\n"

/-- Complain about how a program was called. -/
def misuse (program text : String) : Done :=
  ([(2, program ++ ": " ++ text ++ "\n" ++ tryHelp program)], 1)

/-- Why the options of a program cannot be followed. -/
inductive OptionFault
  | unknownLong (option : String)
  | unknownLetter (letter : Char)
  deriving DecidableEq, Repr

def OptionFault.message : OptionFault → String
  | .unknownLong option => "unrecognized option '" ++ option ++ "'"
  | .unknownLetter c => "invalid option -- '" ++ toString c ++ "'"

/-- The options among the arguments, as letters, and the operands. Two
dashes end the options. -/
def options (letters : List Char) : List String → Except OptionFault (List Char × List String)
  | [] => .ok ([], [])
  | arg :: args =>
    if arg = "--" then .ok ([], args)
    else
      match arg.toList with
      | '-' :: '-' :: _ => .error (.unknownLong arg)
      | '-' :: c :: cs =>
        match (c :: cs).find? fun c => !letters.contains c with
        | some c => .error (.unknownLetter c)
        | none => (options letters args).map fun (ds, operands) => (c :: cs ++ ds, operands)
      | _ => (options letters args).map fun (cs, operands) => (cs, arg :: operands)

/-- Go on with the options and operands of a program. -/
def withOptions (program : String) (letters : List Char) (args : List String)
    (f : List Char → List String → Done) : Done :=
  match options letters args with
  | .ok (chosen, operands) => f chosen operands
  | .error fault => misuse program fault.message

/-! ## Writing -/

/-- Write a text, with its escapes read if a dialect is given, and a line
feed behind it if it is a line. -/
def writeOut (d : Option Dialect) (isLine : Bool) (args : List String) : Done :=
  let text := (" ".intercalate args).toList
  let (out, goesOn) := match d with
    | some d => unescape d (text.length + 1) text
    | none => (text.flatMap bytesOf, true)
  ([(1, Text.lenient (out ++ if isLine && goesOn then bytesOf '\n' else []))], 0)

/-- The letters of an option of `echo`: `-n` leaves out the line feed, `-e`
has escapes read, `-E` has them not read. -/
def echoOption? (arg : String) : Option (List Char) :=
  match arg.toList with
  | '-' :: c :: cs => if (c :: cs).all "neE".toList.contains then some (c :: cs) else none
  | _ => none

/-- Write the arguments with blanks between them and a line feed behind
them, as the options in front of them say. -/
def echo (escaped isLine : Bool) : List String → Done
  | [] => writeOut (if escaped then some .echo else none) isLine []
  | arg :: args =>
    match echoOption? arg with
    | none => writeOut (if escaped then some .echo else none) isLine (arg :: args)
    | some letters =>
      let escaped := letters.foldl (fun b c => if c = 'n' then b else c == 'e') escaped
      echo escaped (isLine && !letters.contains 'n') args

/-- The `echo` of a shell: it reads escapes, and `-n` is its only option. -/
def echoEscaped : List String → Done
  | "-n" :: args => writeOut (some .shell) false args
  | args => writeOut (some .shell) true args

/-- The `printf` of a shell, with what its complaints begin with. -/
def printfBuiltIn (complaint : String) (args : List String) : Done :=
  match args with
  | [] => ([(2, complaint ++ "usage: printf format [arg ...]\n")], 2)
  | "--" :: rest => printfBuiltIn complaint rest
  | text :: args =>
    match text.toList with
    | '-' :: c :: _ => ([(2, complaint ++ "Illegal option -" ++ toString c ++ "\n")], 2)
    | _ =>
      match Format.apply .shell text args with
      | (out, none) => ([(1, out)], 0)
      | (out, some fault) => ([(1, out), (2, complaint ++ fault.shellMessage ++ "\n")], 2)

/-- The `printf` that is a program, which warns of what it does not use. -/
def printf (program : String) (args : List String) : Done :=
  match args with
  | [] => misuse program "missing operand"
  | "--" :: rest => printf program rest
  | text :: args =>
    let (out, fault) := Format.apply .printf text args
    let unused := match Format.asks text, args with
      | false, arg :: _ =>
        [(2, program ++ ": warning: ignoring excess arguments, starting with '" ++ arg ++ "'\n")]
      | _, _ => []
    let complaints := fault.toList.map fun f => (2, program ++ ": " ++ f.programMessage ++ "\n")
    ((1, out) :: complaints ++ unused, if fault.isNone then 0 else 1)

/-! ## Reading -/

/-- The words for an error. -/
def words : SystemError → String
  | .number n => SystemError.describe n
  | .text s => s

/-- A message about a file. -/
def fileMessage (program path : String) (e : SystemError) : String :=
  program ++ ": " ++ path ++ ": " ++ words e ++ "\n"

/-- The text of an operand; a dash stands for the input. -/
def operandText (d : Disk) (input path : String) : Except SystemError String :=
  if path = "-" || path = "/dev/stdin" then .ok input else read d path

/-- Write files one after the other. -/
def cat (d : Disk) (program : String) (args : List String) (input : String) : Done :=
  withOptions program ['u'] args fun _ operands =>
    let step (written : Done) (path : String) : Done :=
      match operandText d input path with
      | .ok text => (written.1 ++ [(1, text)], written.2)
      | .error e => (written.1 ++ [(2, fileMessage program path e)], 1)
    (if operands.isEmpty then ["-"] else operands).foldl step ([], 0)

/-- The number of runs of characters that are not blank. -/
def wordCount (cs : List Char) : Nat :=
  let step (state : Nat × Bool) (c : Char) : Nat × Bool :=
    if c.isWhitespace || c = '\x0b' || c = '\x0c' then (state.1, false)
    else (if state.2 then state.1 else state.1 + 1, true)
  (cs.foldl step (0, false)).1

/-- What a letter asks to be counted. -/
def count (letter : Char) (text : String) : Nat :=
  match letter with
  | 'l' => text.toList.count '\n'
  | 'w' => wordCount text.toList
  | _ => text.utf8ByteSize

/-- Count the lines, words or bytes of a file or of the input. Only one
count of one text is known, which needs no columns. -/
def wc (d : Disk) (program : String) (args : List String) (input : String) : Done :=
  withOptions program ['l', 'w', 'c'] args fun chosen operands =>
    let answer (letter : Char) (path name : String) : Done :=
      match operandText d input path with
      | .ok text => ([(1, toString (count letter text) ++ name ++ "\n")], 0)
      | .error e => ([(2, fileMessage program path e)], 1)
    match chosen, operands with
    | [letter], [] => answer letter "-" ""
    | [letter], [path] => answer letter path (" " ++ path)
    | _, _ => misuse program "only one count of one file"

/-! ## Testing -/

/-- The test whose arguments end with a bracket. -/
def bracketed? (name : String) (args : List String) : Option (List String) :=
  if name ≠ "[" then some args
  else if args.getLast? = some "]" then some args.dropLast
  else none

/-- The exit code of a test. -/
def codeOf (holds : Bool) : Nat := if holds then 0 else 1

/-- The `test` of a shell, with what its complaints begin with. -/
def testBuiltIn (d : Disk) (complaint name : String) (args : List String) : Done :=
  match bracketed? name args with
  | none => ([(2, complaint ++ "missing ]\n")], 2)
  | some ws =>
    match Condition.eval (facts d) ws with
    | .ok holds => ([], codeOf holds)
    | .error fault => ([(2, complaint ++ fault.shellMessage ++ "\n")], 2)

/-- The `test` that is a program. -/
def test (d : Disk) (program name : String) (args : List String) : Done :=
  match bracketed? name args with
  | none => ([(2, program ++ ": missing ']'\n")], 2)
  | some ws =>
    match Condition.eval (facts d) ws with
    | .ok holds => ([], codeOf holds)
    | .error fault => ([(2, program ++ ": " ++ fault.programMessage ++ "\n")], 2)

/-! ## Waiting -/

/-- A length of time: digits, perhaps with a point, and a unit. -/
def isInterval (s : String) : Bool :=
  let cs := s.toList
  let cs := if "smhd".toList.any fun c => cs.getLast? = some c then cs.dropLast else cs
  cs.any Char.isDigit && cs.all (fun c => c.isDigit || c = '.') && cs.count '.' ≤ 1

/-- Wait; what is measured here does not include time. -/
def sleep (program : String) (args : List String) : Done :=
  withOptions program [] args fun _ operands =>
    match operands, operands.filter fun s => !isInterval s with
    | [], _ => misuse program "missing operand"
    | _, [] => ([], 0)
    | _, bad =>
      let lines := bad.map fun s => program ++ ": invalid time interval '" ++ s ++ "'\n"
      ([(2, String.join lines ++ tryHelp program)], 1)

def pwd (d : Disk) (program : String) (args : List String) : Done :=
  withOptions program ['L', 'P'] args fun _ operands =>
    let ignored := if operands.isEmpty then []
      else [(2, program ++ ": ignoring non-option arguments\n")]
    (ignored ++ [(1, here d ++ "\n")], 0)

/-! ## By name -/

/-- The names of the utilities. -/
def names : List String :=
  ["true", "false", "echo", "printf", "cat", "wc", "test", "[", "sleep", "pwd"]

/-- What a utility does, by its name; `program` is what it was called. -/
def run? (d : Disk) (program name : String) (args : List String) (input : String) :
    Option Done :=
  match name with
  | "true" => some ([], 0)
  | "false" => some ([], 1)
  | "echo" => some (echo false true args)
  | "printf" => some (printf program args)
  | "cat" => some (cat d program args input)
  | "wc" => some (wc d program args input)
  | "test" | "[" => some (test d program name args)
  | "sleep" => some (sleep program args)
  | "pwd" => some (pwd d program args)
  | _ => none

/-- Whether a utility reads its input to the end. -/
def readsInput (name : String) (args : List String) : Bool :=
  (name = "cat" || name = "wc")
    && (args.contains "-" || args.all fun s => s.toList.head? = some '-')

end Utility

end AdvisoryGate.Machine
