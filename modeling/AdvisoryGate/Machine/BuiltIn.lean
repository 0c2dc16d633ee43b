import AdvisoryGate.Machine.Expansion

/-!
# Commands that a shell has built in

Those that change the shell itself and those that save a program. A fault
in one of the special ones ends the shell; behind a fault in another one
the shell goes on with the exit code 2.
-/

namespace AdvisoryGate.Machine

namespace BuiltIn

open Act

/-- The special commands. -/
def specialNames : List String := [":", "eval", "exec", "exit", "export", "set", "shift"]

/-- A number in an argument of a command. -/
def number (command s : String) : Act Nat :=
  match Condition.natural? s with
  | some n => return n
  | none => fail (command ++ ": Illegal number: " ++ s)

/-- Behind a fault, go on. -/
def forgiving (act : Act Unit) : Act Unit :=
  tryCatch act fun ending => if ending = .exited 2 then setStatus 2 else throw ending

/-! ## Control -/

/-- End the shell. Of the number only the last eight bits count. -/
def exit (args : List String) : Act Unit := do
  let code ← match args with
    | [] => pure (← get).status
    | arg :: _ => number "exit" arg
  finish (.exited (code % 256))

def shift (args : List String) : Act Unit := do
  let n ← match args with
    | [] => pure 1
    | arg :: _ => number "shift" arg
  let s ← get
  if s.arguments.length < n then fail "shift: can't shift that many"
  else set { s with arguments := s.arguments.drop n, status := 0 }

/-! ## Variables -/

/-- Have programs be given variables, and set those that have a value. -/
def exportVariables (args : List String) : Act Unit := do
  for arg in args do
    let (name, value) := (Environment.assignment? arg).getD (arg, "")
    if !isName name then fail ("export: " ++ name ++ ": bad variable name")
    if name ≠ arg then assign name value
    modify fun s => { s with exported := name :: s.exported.filter (· ≠ name) }
  setStatus 0

/-! ## Options of the shell -/

/-- Options read from arguments. -/
structure Choice where
  /-- Whether the shell ends behind a failure. -/
  strict : Bool
  /-- A text follows instead of the path of a script. -/
  hasText : Bool := false
  /-- Two dashes have ended the options. -/
  ended : Bool := false
  /-- The arguments behind the options. -/
  rest : List String := []

/-- Read the options that arguments begin with, or find a letter that is not
known. A plus takes back what a dash sets. -/
def choose (known : List Char) (strict : Bool) : List String → Except Char Choice
  | [] => .ok { strict }
  | arg :: args =>
    match arg.toList with
    | ['-', '-'] => .ok { strict, ended := true, rest := args }
    | sign :: c :: cs =>
      if sign ≠ '-' && sign ≠ '+' then .ok { strict, rest := arg :: args }
      else
        let letters := c :: cs
        match letters.find? fun c => !known.contains c with
        | some c => .error c
        | none =>
          (choose known (if letters.contains 'e' then sign = '-' else strict) args).map
            fun choice => { choice with hasText := choice.hasText || letters.contains 'c' }
    | _ => .ok { strict, rest := arg :: args }

/-- Change options, and the arguments if there are others. -/
def setOptions (args : List String) : Act Unit := do
  let s ← get
  match choose ['e'] s.strict args with
  | .error c => fail ("set: Illegal option -" ++ toString c)
  | .ok c =>
    let s := { s with strict := c.strict, status := 0 }
    set (if c.rest.isEmpty && !c.ended then s else { s with arguments := c.rest })

/-! ## Signals -/

def usageOfKill : String :=
  "kill: Usage: kill [-s sigspec | -signum | -sigspec] [pid | job]... or\nkill -l [exitstatus]"

/-- Send a signal to processes, of which only the shell itself is there. -/
def send (signal : Nat) (targets : List String) : Act Unit := do
  if targets.isEmpty then fail usageOfKill
  setStatus 0
  for target in targets do
    match Condition.natural? target with
    | none => fail ("kill: Illegal number: " ++ target)
    | some n =>
      if n ≠ 0 && target ≠ toString (← get).process then reject "kill: No such process\n" 1
      else if !Signal.isHarmless signal then finish (.killed signal)

def kill : List String → Act Unit
  | [] => fail usageOfKill
  | ["-s"] => fail "kill: No arg for -s option"
  | "-s" :: name :: targets =>
    match Signal.ofText? name with
    | some n => send n targets
    | none => fail ("kill: invalid signal number or name: " ++ name)
  | option :: targets =>
    match option.toList with
    | '-' :: cs =>
      match Signal.ofText? (String.ofList cs) with
      | some n => send n targets
      | none => fail ("kill: Illegal option " ++ String.ofList (option.toList.take 2))
    | _ => send 15 (option :: targets)

/-! ## Places -/

/-- Go to another directory. -/
def changeDirectory (args : List String) : Act Unit := do
  let s ← get
  let path := args.headD ((s.bindings.lookup "HOME").getD "")
  match s.disk.placeOf path, s.disk.isDirectory path with
  | .ok place, true =>
    set { s with disk := { s.disk with here := place } }
    assign "OLDPWD" (Utility.here s.disk)
    assign "PWD" ("/" ++ "/".intercalate place)
    setStatus 0
  | _, _ => if path = "" then setStatus 0 else reject ("cd: can't cd to " ++ path) 2

/-! ## By name -/

/-- Do what a utility does. -/
def utility (d : Done) : Act Unit := do
  emitAll d.1
  setStatus d.2

/-- Run a command that is not special, if there is one of that name. -/
def plain? (s : State) (name : String) (args : List String) : Option (Act Unit) :=
  let complaint := s.name ++ ": " ++ toString s.line ++ ": " ++ name ++ ": "
  match name with
  | "true" => some (setStatus 0)
  | "false" => some (setStatus 1)
  | "echo" =>
    if (s.streams.lookup 1).isNone then some (reject "echo: echo: I/O error" 1)
    else some (utility (Utility.echoEscaped args))
  | "printf" => some (utility (Utility.printfBuiltIn complaint args))
  | "test" | "[" => some (utility (Utility.testBuiltIn s.disk complaint name args))
  | "pwd" => some (utility ([(1, Utility.here s.disk ++ "\n")], 0))
  | "cd" => some (forgiving (changeDirectory args))
  | "kill" => some (forgiving (kill args))
  | _ => none

/-- Run a special command other than `exec`. -/
def special (k : Kernel) (name : String) (args : List String) : Act Unit :=
  match name with
  | "eval" => do
    setStatus 0
    k.evaluate (← get).tested (" ".intercalate args)
  | "exit" => exit args
  | "export" => exportVariables args
  | "set" => setOptions args
  | "shift" => shift args
  | _ => setStatus 0

end BuiltIn

end AdvisoryGate.Machine
