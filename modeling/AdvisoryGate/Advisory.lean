import AdvisoryGate.Text.Blank
import AdvisoryGate.Text.Order
import AdvisoryGate.Text.Quoted

/-!
# Advisory ids and ignore lists

An advisory id is opaque text (`RUSTSEC-2022-0093`, `GHSA-…`): nothing in
it is read, it only has to hold something visible. `AdvisoryId.ofText?`
takes what a user wrote, cuts the blanks around it and refuses what is
then empty; `AdvisoryId.literal` takes an id as it is.

An ignore list keeps its ids in the order in which they came. `push` keeps
repeats, `pushUnique` does not: merging with `extendUnique` gives the
first-occurrence order of all ids.
-/

namespace AdvisoryGate

/-! ## Ids -/

/-- Identifier of a published advisory. -/
structure AdvisoryId where
  text : String
  deriving DecidableEq, Repr

/-- A user's id without a visible character; `raw` is what was written. -/
structure BlankId where
  raw : String
  deriving DecidableEq, Repr

/-- What a blank id is reported as. -/
def BlankId.message (e : BlankId) : String :=
  "advisory id must not be empty (got " ++ Text.quoted e.raw ++ ")"

namespace AdvisoryId

/-- An id that is known to be good, taken as it is. -/
def literal (text : String) : AdvisoryId := ⟨text⟩

/-- The id a user wrote, without the blanks around it. -/
def ofText? (raw : String) : Except BlankId AdvisoryId :=
  if Text.isBlank raw then .error ⟨raw⟩ else .ok ⟨Text.trim raw⟩

/-- Ids are ordered by the UTF-8 bytes of their texts. -/
def order (a b : AdvisoryId) : Ordering := Text.order a.text b.text

instance : Ord AdvisoryId := ⟨order⟩

/-- The ids in ascending order, repeats kept. -/
def sort (ids : List AdvisoryId) : List AdvisoryId :=
  ids.mergeSort fun a b => (order a b).isLE

end AdvisoryId

/-! ## Lists -/

/-- The advisories an audit must not fail on, in order. -/
structure IgnoreList where
  ids : List AdvisoryId
  deriving DecidableEq, Repr

namespace IgnoreList

def empty : IgnoreList := ⟨[]⟩

/-- A list of known-good ids. -/
def literal (texts : List String) : IgnoreList := ⟨texts.map .literal⟩

/-- The ids a user wrote, repeats kept; the first blank one is an error. -/
def ofTexts? (raws : List String) : Except BlankId IgnoreList :=
  (raws.mapM AdvisoryId.ofText?).map .mk

def length (l : IgnoreList) : Nat := l.ids.length

def isEmpty (l : IgnoreList) : Bool := l.ids.isEmpty

def texts (l : IgnoreList) : List String := l.ids.map (·.text)

def contains (l : IgnoreList) (id : AdvisoryId) : Bool := l.ids.contains id

def reverse (l : IgnoreList) : IgnoreList := ⟨l.ids.reverse⟩

/-- Append an id, listed already or not. -/
def push (l : IgnoreList) (id : AdvisoryId) : IgnoreList := ⟨l.ids ++ [id]⟩

/-- Append an id unless it is listed already; says whether it was added. -/
def pushUnique (l : IgnoreList) (id : AdvisoryId) : IgnoreList × Bool :=
  if l.contains id then (l, false) else (l.push id, true)

/-- Merge a user's ids into the list. The first blank id is an error. -/
def extendUnique (l : IgnoreList) : List String → Except BlankId IgnoreList
  | [] => .ok l
  | raw :: raws =>
    match AdvisoryId.ofText? raw with
    | .error e => .error e
    | .ok id => (l.pushUnique id).1.extendUnique raws

/-! ## As arguments -/

/-- The flag that makes the auditor skip one advisory; the id follows it. -/
def flag : String := "--ignore"

/-- One pair of flag and id for each entry, in order. -/
def arguments (l : IgnoreList) : List String :=
  l.ids.flatMap fun id => [flag, id.text]

end IgnoreList

end AdvisoryGate
