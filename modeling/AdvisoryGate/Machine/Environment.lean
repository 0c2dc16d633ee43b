/-!
# Environments

The variables that a program is given, in the order in which they were set.
A variable that is set again stays in its place.
-/

namespace AdvisoryGate.Machine

abbrev Environment := List (String × String)

namespace Environment

/-- Give a variable a value. -/
def set (e : Environment) (name value : String) : Environment :=
  if (e.lookup name).isSome then e.map fun v => if v.1 = name then (name, value) else v
  else e ++ [(name, value)]

def unset (e : Environment) (name : String) : Environment := e.filter (·.1 ≠ name)

/-- The variables as text, one to a line. -/
def lines (e : Environment) : String := String.join (e.map fun v => v.1 ++ "=" ++ v.2 ++ "\n")

/-- A name with a value behind an equals sign. -/
def assignment? (s : String) : Option (String × String) :=
  match s.toList.span (· ≠ '=') with
  | (name, _ :: value) => some (String.ofList name, String.ofList value)
  | (_, []) => none

/-- The directories in which a program searches for others. -/
def searchPath (e : Environment) : List String :=
  (e.lookup "PATH").elim ["/bin", "/usr/bin"] fun path => path.splitOn ":"

/-- The environment that the first arguments ask for by their assignments,
and the command behind them. -/
def ofArguments (e : Environment) : List String → Environment × List String
  | [] => (e, [])
  | arg :: args =>
    match assignment? arg with
    | some (name, value) => ofArguments (e.set name value) args
    | none => (e, arg :: args)

end Environment

end AdvisoryGate.Machine
