/-!
# Conditions

What the arguments of `test` mean: comparisons of texts and of numbers and
questions about files, which can be denied. How many arguments there are
decides what is an operator; conditions cannot be joined.
-/

namespace AdvisoryGate.Machine

/-- What a condition can ask about a path. -/
structure PathFacts where
  isThere : Bool
  isDirectory : Bool
  isEmpty : Bool
  isExecutable : Bool
  deriving DecidableEq, Repr

namespace Condition

/-- Why arguments are not a condition. -/
inductive Fault
  | notNumber (s : String)
  /-- This word is no operator. -/
  | stray (word : String)
  deriving DecidableEq, Repr

/-! ## Numbers -/

def isBlank (c : Char) : Bool := c = ' ' || (9 ≤ c.toNat && c.toNat ≤ 13)

/-- A whole number of 64 bits with a sign, with blanks around it. -/
def integer? (s : String) : Option Int :=
  let cs := s.toList.dropWhile isBlank
  let (negative, cs) := match cs with
    | '-' :: cs => (true, cs)
    | '+' :: cs => (false, cs)
    | cs => (false, cs)
  let digits := cs.takeWhile Char.isDigit
  if digits.isEmpty || !(cs.drop digits.length).all isBlank then none
  else
    let n : Int := digits.foldl (fun n c => 10 * n + (c.toNat - '0'.toNat : Nat)) 0
    let n := if negative then -n else n
    if -0x8000000000000000 ≤ n ∧ n < 0x8000000000000000 then some n else none

/-- A whole number that is not negative and has 31 bits. -/
def natural? (s : String) : Option Nat :=
  match integer? s with
  | some n => if 0 ≤ n ∧ n < 0x80000000 then some n.toNat else none
  | none => none

/-! ## Operators -/

/-- A question about one operand. -/
def unary? (facts : String → PathFacts) (operator : String) : Option (String → Bool) :=
  match operator with
  | "-n" => some (· ≠ "")
  | "-z" => some (· = "")
  | "-e" | "-r" | "-w" => some fun s => (facts s).isThere
  | "-d" => some fun s => (facts s).isDirectory
  | "-f" => some fun s => (facts s).isThere && !(facts s).isDirectory
  | "-s" => some fun s => (facts s).isThere && !(facts s).isEmpty
  | "-x" => some fun s => (facts s).isExecutable
  | _ => none

def numbers (f : Int → Int → Bool) (a b : String) : Except Fault Bool :=
  match integer? a, integer? b with
  | some m, some n => .ok (f m n)
  | none, _ => .error (.notNumber a)
  | _, none => .error (.notNumber b)

/-- A comparison of two operands. -/
def binary? (operator : String) : Option (String → String → Except Fault Bool) :=
  match operator with
  | "=" => some fun a b => .ok (a = b)
  | "!=" => some fun a b => .ok (a ≠ b)
  | "-eq" => some (numbers (· == ·))
  | "-ne" => some (numbers (· != ·))
  | "-lt" => some (numbers (· < ·))
  | "-le" => some (numbers (· ≤ ·))
  | "-gt" => some (numbers (· > ·))
  | "-ge" => some (numbers (· ≥ ·))
  | _ => none

/-! ## Conditions -/

/-- The value of a condition. Of three words the one in the middle is an
operator if it can be. -/
def eval (facts : String → PathFacts) : List String → Except Fault Bool
  | [] => .ok false
  | [a] => .ok (a ≠ "")
  | [operator, a] =>
    match unary? facts operator with
    | some f => .ok (f a)
    | none => if operator = "!" then .ok (a = "") else .error (.stray operator)
  | [a, operator, b] =>
    match binary? operator with
    | some f => f a b
    | none => if a = "!" then (eval facts [operator, b]).map (!·) else .error (.stray operator)
  | a :: ws => if a = "!" then (eval facts ws).map (!·) else .error (.stray (ws.headD ""))

/-- How a shell complains. -/
def Fault.shellMessage : Fault → String
  | .notNumber s => "Illegal number: " ++ s
  | .stray word => word ++ ": unexpected operator"

/-- How a program complains. -/
def Fault.programMessage : Fault → String
  | .notNumber s => "invalid integer '" ++ s ++ "'"
  | .stray word => "extra argument '" ++ word ++ "'"

end Condition

end AdvisoryGate.Machine
