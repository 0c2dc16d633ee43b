/-!
# Paths

The textual side of paths: their parts, the last name, the parent, and
joining. Nothing here looks at a disk, so `..` is a part like any other;
only separators and lone dots at the end are seen through. Most of it works
from the end of a path and is written on the characters in reverse.
-/

namespace AdvisoryGate.Path

/-- The texts between the slashes, empty ones kept. -/
def partsOfChars : List Char → List (List Char)
  | [] => [[]]
  | c :: cs =>
    if c = '/' then [] :: partsOfChars cs
    else
      match partsOfChars cs with
      | [] => [[c]]
      | part :: parts => (c :: part) :: parts

def parts (path : String) : List String := (partsOfChars path.toList).map String.ofList

def isAbsolute (path : String) : Bool := path.toList.head? = some '/'

/-! ## From the end -/

/-- Drop separators and lone dots from the end of a path, given in
reverse. The root keeps its slash, and a dot that is all of a path stays. -/
def bareReversed : List Char → List Char
  | [] => []
  | c :: cs =>
    if cs = [] then [c]
    else if c = '/' then bareReversed cs
    else if c = '.' ∧ cs.head? = some '/' then bareReversed cs
    else c :: cs

/-- The last name of a path, given in reverse. -/
def nameReversed (cs : List Char) : List Char := (bareReversed cs).takeWhile (· ≠ '/')

/-- What stands before the last name of a path, given in reverse. -/
def parentReversed (cs : List Char) : List Char :=
  bareReversed ((bareReversed cs).dropWhile (· ≠ '/'))

/-- The last name of a path; empty for the root and the empty path. -/
def name (path : String) : String :=
  String.ofList (nameReversed path.toList.reverse).reverse

/-- The path without its last name. -/
def parent (path : String) : String :=
  String.ofList (parentReversed path.toList.reverse).reverse

/-- A path and those above it, the nearest first, as long as there is a
name left to take away. -/
def ancestorsReversed : Nat → List Char → List (List Char)
  | 0, _ => []
  | n + 1, cs =>
    if nameReversed cs = [] then [] else cs :: ancestorsReversed n (parentReversed cs)

/-- A path and those above it, down to the last with a name. A path loses
at least one character on the way up, so its length bounds their number. -/
def ancestors (path : String) : List String :=
  (ancestorsReversed path.length path.toList.reverse).map fun cs => String.ofList cs.reverse

/-! ## Joining -/

/-- A relative path below another one. -/
def join (base below : String) : String :=
  if base = "" ∨ base.toList.getLast? = some '/' then base ++ below else base ++ "/" ++ below

end AdvisoryGate.Path
