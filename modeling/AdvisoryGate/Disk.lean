import AdvisoryGate.Path
import AdvisoryGate.SystemError

/-!
# Disks

A disk is what stands at each place of a tree of directories, a place being
the names that lead to it from the root. Paths are followed as the system
follows them, one part after the other, so a part behind a file, a missing
directory or an overlong name is refused where it is met.

The system need not let a program do what it asks for, even where the tree
would: it can refuse any access to any place, and a file can turn out to
have less room than is written to it (`Obstacles`). Of permissions, broken
or circular links, full or read-only devices, quotas and limits on sizes
only this outcome is modelled, not the owners, modes, links and devices
behind it. Left out are links that can be followed, so that two paths of
plain names never lead to one place; changes by others while a program is at
work; and the end of a program in the middle of a write.

Only `makeDirectory`, `makeDirectories` and `write` give another disk, and
each of them says which places it touches.
-/

namespace AdvisoryGate

/-- What can stand at a place. -/
inductive Entry
  | directory
  | file (content : ByteArray) (executable : Bool)

-- Deriving it would take whichever comparison of bytes is in scope.
instance : DecidableEq Entry
  | .directory, .directory => .isTrue rfl
  | .directory, .file _ _ | .file _ _, .directory => .isFalse nofun
  | .file c x, .file c' x' =>
    @decidable_of_iff _ (c = c' ∧ x = x') (by simp)
      (@instDecidableAnd _ _ (ByteArray.instDecidableEq c c') _)

/-- What a program can ask of the system at a place. -/
inductive Access
  /-- To learn what stands there. -/
  | look
  /-- To follow a path on from a directory. -/
  | search
  /-- To open a file or a directory, and to read what is in it. -/
  | read
  /-- To make a directory. -/
  | make
  /-- To open a file in order to write it, and to make it if it is missing. -/
  | write
  deriving DecidableEq, Repr

/-- What stands in the way of a program. -/
structure Obstacles where
  /-- Why an access to a place is refused, so that it comes to nothing. -/
  refusal? : Access → List String → Option SystemError
  /-- How many bytes a file at a place can hold, and why no more. A longer
  write has been let through when it breaks off there. -/
  room? : List String → Option (Nat × SystemError)

namespace Obstacles

/-- Nothing is in the way. -/
def none : Obstacles := ⟨fun _ _ => .none, fun _ => .none⟩

/-- What a file at a place holds once a content has been written to it, and
how that ended. A write that breaks off leaves what it has written. -/
def fill (o : Obstacles) (place : List String) (content : ByteArray) :
    ByteArray × Except SystemError Unit :=
  match o.room? place with
  | .none => (content, .ok ())
  | some (room, cause) =>
    if room < content.size then (content.extract 0 room, .error cause) else (content, .ok ())

end Obstacles

/-- A tree of files, the directory that relative paths start from, and what
stands in the way of the program that works there. -/
structure Disk where
  get? : List String → Option Entry
  here : List String
  obstacles : Obstacles := .none

namespace Disk

/-- Nothing but a root. -/
def bare : Disk where
  get? := fun place => if place = [] then some .directory else none
  here := []

/-- The same tree, with other things in the way. -/
def under (d : Disk) (o : Obstacles) : Disk := { d with obstacles := o }

/-- Put an entry at a place. -/
def put (d : Disk) (place : List String) (e : Entry) : Disk :=
  { d with get? := fun p => if p = place then some e else d.get? p }

/-! ## Following paths -/

/-- The longest name, in bytes. -/
def maxName : Nat := 255

/-- The longest path, in bytes. -/
def maxPath : Nat := 4095

/-- What the system says stands at a place. -/
def see (d : Disk) (place : List String) : Except SystemError Entry :=
  match d.obstacles.refusal? .look place, d.get? place with
  | some cause, _ => .error cause
  | none, some e => .ok e
  | none, none => .error .noEntry

/-- Go on from a place by one part of a path. Where this leads need not be
there, but where it starts has to be a directory. An empty part asks for
nothing else; any other part, also a lone dot, searches the directory. -/
def enter (d : Disk) (place : List String) (part : String) :
    Except SystemError (List String) := do
  match ← d.see place with
  | .file _ _ => .error .notDirectory
  | .directory =>
    if part = "" then .ok place
    else
      match d.obstacles.refusal? .search place with
      | some cause => .error cause
      | none =>
        if part = "." then .ok place
        else if part = ".." then .ok place.dropLast
        else if maxName < part.utf8ByteSize then .error .nameTooLong
        else .ok (place ++ [part])

/-- The place a path leads to. The last name need not be there. -/
def placeOf (d : Disk) (path : String) : Except SystemError (List String) :=
  if path = "" then .error .noEntry
  else if maxPath < path.utf8ByteSize then .error .nameTooLong
  else (Path.parts path).foldlM d.enter (if Path.isAbsolute path then [] else d.here)

/-- What a path leads to. -/
def find (d : Disk) (path : String) : Except SystemError Entry := do
  d.see (← d.placeOf path)

/-- Whether a path leads to something, as far as the system lets it be
seen: a refusal counts as nothing. -/
def holds (d : Disk) (path : String) : Bool := (d.find path).isOk

def isDirectory (d : Disk) (path : String) : Bool :=
  match d.find path with
  | .ok .directory => true
  | _ => false

/-- What is in a file. -/
def readBytes (d : Disk) (path : String) : Except SystemError ByteArray := do
  let place ← d.placeOf path
  let entry ← d.see place
  match d.obstacles.refusal? .read place, entry with
  | some cause, _ => .error cause
  | none, .directory => .error .isDirectory
  | none, .file content _ => .ok content

/-- The text of a file. -/
def readText (d : Disk) (path : String) : Except SystemError String := do
  match String.fromUTF8? (← d.readBytes path) with
  | some text => .ok text
  | none => .error .notText

/-! ## Changing -/

/-- Make one directory, whose parent is there already. -/
def makeDirectory (d : Disk) (path : String) : Except SystemError Disk := do
  let place ← d.placeOf path
  match d.get? place, d.obstacles.refusal? .make place with
  | some _, _ => .error .alreadyExists
  | none, some cause => .error cause
  | none, none => .ok (d.put place .directory)

/-- Make a directory unless it is there. -/
def ensureDirectory (d : Disk) (path : String) : Disk × Except SystemError Unit :=
  match d.makeDirectory path with
  | .ok d' => (d', .ok ())
  | .error e => (d, if d.isDirectory path then .ok () else .error e)

/-- Make a directory, given with those above it, and the missing ones among
them. What has been made stays even if a later one cannot be made. -/
def makeChain (d : Disk) : List String → Disk × Except SystemError Unit
  | [] => (d, .ok ())
  | path :: above =>
    match d.makeDirectory path with
    | .error .noEntry =>
      match d.makeChain above with
      | (d', .ok ()) => d'.ensureDirectory path
      | (d', .error e) => (d', .error e)
    | _ => d.ensureDirectory path

/-- Make a directory and the missing ones above it. -/
def makeDirectories (d : Disk) (path : String) : Disk × Except SystemError Unit :=
  d.makeChain (Path.ancestors path)

/-- Whether a file that is written in place of an entry can be executed. -/
def modeOf : Option Entry → Bool
  | some (.file _ executable) => executable
  | _ => false

/-- Write a file, in place of the one that is there. What that one holds is
gone once the file has been opened, even if the write breaks off then. -/
def write (d : Disk) (path : String) (content : ByteArray) : Disk × Except SystemError Unit :=
  match d.placeOf path with
  | .error e => (d, .error e)
  | .ok place =>
    match d.get? place, d.obstacles.refusal? .write place with
    | some .directory, _ => (d, .error .isDirectory)
    | _, some cause => (d, .error cause)
    | entry, none =>
      let (held, result) := d.obstacles.fill place content
      (d.put place (.file held (modeOf entry)), result)

end Disk

end AdvisoryGate
