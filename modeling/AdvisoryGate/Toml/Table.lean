import AdvisoryGate.Toml.Value

/-!
# What may be added to a TOML table

Keys and headers name places by paths. A part of a path that does not exist
is created; one that exists must be a table that is still open to this kind
of path, or an array of tables, whose last table is then meant.

* No key is given twice.
* A dotted key adds to tables that dotted keys made and to those that were
  only implied so far. These are then as if dotted keys had made them.
* A header opens a table that does not exist or was only implied so far.
* What is written in braces or brackets is complete.
-/

namespace AdvisoryGate.Toml

/-- Put another value in the place of a key's. -/
def Entries.replace (es : Entries) (name : String) (v : Located Value) : Entries :=
  es.map fun e => if e.1.name = name then (e.1, v) else e

/-- Add a key that the table does not have. -/
def Entries.insertNew? (es : Entries) (k : Key) (v : Located Value) : Option Entries :=
  if (es.find? k.name).isSome then none else some (es ++ [(k, v)])

/-- What becomes of a table when a path leads through it: one that was
implied is made by the first dotted key that names it. -/
def TableKind.passedBy (kind make : TableKind) : TableKind :=
  if make = .dotted ∧ kind = .implied then .dotted else kind

/-- Change the table at the end of a path. Tables that the path needs are
created of the kind `make`; the change is told the kind of the table. -/
def Entries.at? (make : TableKind) (change : TableKind → Entries → Option Entries) :
    List Key → TableKind → Entries → Option Entries
  | [], kind, es => change kind es
  | k :: path, _, es =>
    match es.find? k.name with
    | none => do
      let sub ← at? make change path make []
      return es ++ [(k, ⟨k.span, .table make sub⟩)]
    | some ⟨span, .table kind sub⟩ =>
      if kind = .inline ∨ (make = .dotted ∧ kind = .headed) then none
      else do
        let kind := kind.passedBy make
        let sub ← at? make change path kind sub
        return es.replace k.name ⟨span, .table kind sub⟩
    | some ⟨span, .array .headed items⟩ =>
      match items.getLast? with
      | some ⟨place, .table kind sub⟩ => do
        let sub ← at? make change path kind sub
        let items := items.dropLast ++ [⟨place, .table kind sub⟩]
        return es.replace k.name ⟨span, .array .headed items⟩
      | _ => none
    | some _ => none

/-! ## Keys with values -/

/-- A line that gives a value to a path of keys. -/
structure Assignment where
  path : List Key
  value : Located Value

/-- Carry out an assignment in the table it is written in. -/
def Entries.assign? (es : Entries) (a : Assignment) : Option Entries :=
  match a.path with
  | [] => none
  | [k] => es.insertNew? k a.value
  | k :: path =>
    let last := path.getLast?.getD k
    es.at? .dotted (fun kind sub =>
      if kind = .dotted then sub.insertNew? last a.value else none)
      (k :: path.dropLast) .headed

/-- Carry out assignments in order. -/
def Entries.assignAll? (es : Entries) (as : List Assignment) : Option Entries :=
  as.foldlM assign? es

/-! ## Tables with headers -/

/-- A header with the assignments below it. -/
structure Section where
  /-- The header is in double brackets: it adds a table to an array. -/
  repeated : Bool
  span : Span
  path : List Key
  body : List Assignment

/-- Open the table of a header. -/
def Section.open? (s : Section) (k : Key) (es : Entries) : Option Entries :=
  match es.find? k.name with
  | none => do
    return es ++ [(k, ⟨s.span, .table .headed (← Entries.assignAll? [] s.body)⟩)]
  | some ⟨_, .table .implied sub⟩ => do
    let sub ← Entries.assignAll? sub s.body
    return es.filter (·.1.name ≠ k.name) ++ [(k, ⟨s.span, .table .headed sub⟩)]
  | some _ => none

/-- Add the table of a header to its array. -/
def Section.append? (s : Section) (k : Key) (es : Entries) : Option Entries := do
  let item : Located Value := ⟨s.span, .table .headed (← Entries.assignAll? [] s.body)⟩
  match es.find? k.name with
  | none => return es ++ [(k, ⟨s.span, .array .headed [item]⟩)]
  | some ⟨span, .array .headed items⟩ =>
    return es.replace k.name ⟨span, .array .headed (items ++ [item])⟩
  | some _ => none

/-- Carry out a header and what stands below it. -/
def Entries.extend? (es : Entries) (s : Section) : Option Entries :=
  match s.path.getLast? with
  | none => none
  | some k =>
    es.at? .implied (fun _ sub => if s.repeated then s.append? k sub else s.open? k sub)
      s.path.dropLast .headed

end AdvisoryGate.Toml
