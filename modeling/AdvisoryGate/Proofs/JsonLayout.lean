import AdvisoryGate.Config.Schema
import AdvisoryGate.Json.Layout
import AdvisoryGate.Proofs.JsonReading

/-!
# Laid-out JSON is read back

The writer of JSON and its reader share no code; they meet in the grammar.
What the writer lays out is a text of the tree of the value
(`Plain.written`), and this tree has the value (`Plain.value?_tree`). So the
reader gives it back (`parse?_layout`).

Numbers are left out, since the reader refuses some of them, and containers
may not be nested deeper than the reader follows (`Plain`).
-/

namespace AdvisoryGate.Json

/-- The value holds no number, and at most so many containers inside each
other. -/
inductive Plain : Nat → Value → Prop
  | null {depth : Nat} : Plain depth .null
  | boolean {depth : Nat} (b : Bool) : Plain depth (.boolean b)
  | string {depth : Nat} (s : String) : Plain depth (.string s)
  | array {depth : Nat} {vs : List Value} :
      (∀ v ∈ vs, Plain depth v) → Plain (depth + 1) (.array vs)
  | object {depth : Nat} {ms : List (String × Value)} :
      (∀ m ∈ ms, Plain depth m.2) → Plain (depth + 1) (.object ms)

mutual

/-- The tree of the texts in which a value is written as it is. -/
def Value.tree : Value → Tree
  | .null => .null
  | .boolean b => .boolean b
  | .number negative x => .number ⟨negative, Nat.toDigits 10 x.digits, [], x.exponent⟩
  | .string s => .string (some s)
  | .array vs => .array (itemTrees vs)
  | .object ms => .object (memberTrees ms)

def itemTrees : List Value → List Tree
  | [] => []
  | v :: vs => v.tree :: itemTrees vs

def memberTrees : List (String × Value) → List (Option String × Tree)
  | [] => []
  | (name, v) :: ms => (some name, v.tree) :: memberTrees ms

end

/-! ## Strings -/

theorem isHex_hexDigit : ∀ n < 16, Toml.IsHex (hexDigit n) n := by
  intro n hn
  refine ⟨false, ?_⟩
  show "0123456789abcdef".toList[n]? = some ("0123456789abcdef".toList.getD n '0')
  rw [List.getD_eq_getElem?_getD, List.getElem?_eq_getElem hn]
  rfl

theorem adds?_unit_toNat {c : Char} (h : c.toNat < 0xd800) :
    (Piece.unit c.toNat).adds? none = some ([c], none) := by
  have hhigh : isHigh c.toNat = false := by
    simp only [isHigh, Bool.and_eq_false_iff, decide_eq_false_iff_not]
    omega
  rw [Piece.adds?, hhigh, Toml.scalar?_toNat]
  rfl

/-- A control is written by number, and its number is below 32. -/
theorem spelled_control {c : Char} (h : c.toNat < 0x20) :
    Spelled (.unit c.toNat)
      ['\\', 'u', '0', '0', hexDigit (c.toNat / 16), hexDigit (c.toNat % 16)] := by
  have hzero : Toml.IsHex '0' 0 := ⟨false, by decide⟩
  have hvalue : Toml.hexValue 0 [0, 0, c.toNat / 16, c.toNat % 16] = c.toNat := by
    show 16 * (16 * (16 * (16 * 0 + 0) + 0) + c.toNat / 16) + c.toNat % 16 = c.toNat
    omega
  have hdigits : List.Forall₂ Toml.IsHex
      ['0', '0', hexDigit (c.toNat / 16), hexDigit (c.toNat % 16)]
      [0, 0, c.toNat / 16, c.toNat % 16] :=
    .cons hzero (.cons hzero (.cons (isHex_hexDigit _ (by omega))
      (.cons (isHex_hexDigit _ (by omega)) .nil)))
  have hunit := Spelled.unit rfl hdigits
  rwa [hvalue] at hunit

theorem exists_spelled_writeChar (c : Char) :
    ∃ p, Spelled p (writeChar c) ∧ p.adds? none = some ([c], none) := by
  unfold writeChar
  split
  case h_8 hquote hbackslash _ _ _ _ _ =>
    split
    · rename_i hcontrol
      exact ⟨_, spelled_control hcontrol, adds?_unit_toNat (by omega)⟩
    · rename_i hcontrol
      exact ⟨.char c, .plain hquote hbackslash (Nat.not_lt.mp hcontrol), rfl⟩
  all_goals exact ⟨_, .short (by decide), rfl⟩

theorem exists_body_writing (cs : List Char) :
    ∃ ps, Body ps (cs.flatMap writeChar) ∧ charsOf none ps = some cs := by
  induction cs with
  | nil => exact ⟨[], .nil, rfl⟩
  | cons c cs ih =>
      obtain ⟨p, hp, hadds⟩ := exists_spelled_writeChar c
      obtain ⟨ps, hps, hchars⟩ := ih
      refine ⟨p :: ps, .cons hp hps, ?_⟩
      rw [charsOf, hadds]
      show (charsOf none ps).bind _ = _
      rw [hchars]
      rfl

theorem stringText_writeString (s : String) : StringText (some s) (writeString s) := by
  obtain ⟨ps, hps, hchars⟩ := exists_body_writing s.toList
  refine ⟨ps, _, hps, ?_, rfl⟩
  rw [hchars, Option.map_some, String.ofList_toList]

/-! ## Containers -/

section Containers

variable {α : Type} {w : α → List Char}

theorem spaces_newLine (n : Nat) : Spaces (newLine n) := by
  intro c hc
  rcases List.mem_cons.mp hc with rfl | hc
  · decide
  · obtain rfl := List.eq_of_mem_replicate hc
    decide

/-- The items behind the first, each on a line of its own. -/
def writeBehind (w : α → List Char) (n : Nat) (xs : List α) : List Char :=
  xs.flatMap fun x => ',' :: newLine n ++ w x

/-- What stands between the brackets of a container. -/
def writeInside (w : α → List Char) (n : Nat) : List α → List Char
  | [] => []
  | x :: xs => newLine (n + 1) ++ w x ++ writeBehind w (n + 1) xs ++ newLine n

theorem row_writing (n m : Nat) (x : α) (xs : List α) :
    Row ((x :: xs).map w) (newLine n ++ (w x ++ (writeBehind w n xs ++ newLine m))) := by
  induction xs generalizing x with
  | nil => exact .last (spaces_newLine n) (spaces_newLine m)
  | cons y ys ih =>
      have hbehind : writeBehind w n (y :: ys) ++ newLine m
          = [] ++ ',' :: (newLine n ++ (w y ++ (writeBehind w n ys ++ newLine m))) := by
        simp [writeBehind]
      rw [hbehind]
      exact .more (spaces_newLine n) spaces_nil (ih y)

theorem row_writeInside (n : Nat) (x : α) (xs : List α) :
    Row ((x :: xs).map w) (writeInside w n (x :: xs)) := by
  have hrow := @row_writing α w (n + 1) n x xs
  rwa [← List.append_assoc, ← List.append_assoc] at hrow

theorem inside_writing (n : Nat) (xs : List α) : Inside (xs.map w) (writeInside w n xs) := by
  cases xs with
  | nil => exact .none spaces_nil
  | cons x xs => exact .row (row_writeInside n x xs)

end Containers

/-! ## Values -/

/-- A member of an object as it is written. -/
def writeMember (n : Nat) (m : String × Value) : List Char :=
  writeString m.1 ++ [':', ' '] ++ write n m.2

theorem writeItems_eq (n : Nat) (vs : List Value) : writeItems n vs = writeBehind (write n) n vs := by
  induction vs with
  | nil => rfl
  | cons v vs ih => rw [writeItems, ih]; simp [writeBehind]

theorem writeMembers_eq (n : Nat) (ms : List (String × Value)) :
    writeMembers n ms = writeBehind (writeMember n) n ms := by
  induction ms with
  | nil => rfl
  | cons m ms ih => rw [writeMembers, ih]; simp [writeBehind, writeMember]

theorem write_array (n : Nat) (vs : List Value) :
    write n (.array vs) = '[' :: (writeInside (write (n + 1)) n vs ++ [']']) := by
  cases vs with
  | nil => rfl
  | cons v vs => rw [write, writeItems_eq]; simp [writeInside]

theorem write_object (n : Nat) (ms : List (String × Value)) :
    write n (.object ms) = '\x7b' :: (writeInside (writeMember (n + 1)) n ms ++ ['\x7d']) := by
  cases ms with
  | nil => rfl
  | cons m ms => rw [write, writeMembers_eq]; simp [writeInside, writeMember]

theorem memberText_writeMember (n : Nat) (m : String × Value) :
    MemberText (some m.1) (write n m.2) (writeMember n m) := by
  refine ⟨writeString m.1, [], [' '], stringText_writeString m.1, spaces_nil, ?_, ?_⟩
  · exact List.forall_mem_singleton.mpr (by decide)
  · simp [writeMember]

/-- An item with its text as it is written. -/
def writtenItem (n : Nat) (v : Value) : Item := ⟨v.tree, write n v⟩

/-- A member with its texts as they are written. -/
def writtenMember (n : Nat) (m : String × Value) : Member :=
  ⟨some m.1, m.2.tree, write n m.2, writeMember n m⟩

theorem itemTrees_eq (n : Nat) (vs : List Value) :
    itemTrees vs = (vs.map (writtenItem n)).map (·.tree) := by
  induction vs with
  | nil => rfl
  | cons v vs ih => rw [itemTrees, ih]; rfl

theorem memberTrees_eq (n : Nat) (ms : List (String × Value)) :
    memberTrees ms = (ms.map (writtenMember n)).map fun m => (m.name, m.tree) := by
  induction ms with
  | nil => rfl
  | cons m ms ih => rw [memberTrees, ih]; rfl

/-- What is laid out is a text of the tree of the value. -/
theorem Plain.written {depth : Nat} {v : Value} (h : Plain depth v) :
    ∀ n, Written v.tree (write n v) := by
  induction h with
  | null => exact fun n => .null
  | boolean b =>
      intro n
      cases b with
      | false => exact .false
      | true => exact .true
  | string s => exact fun n => .string (stringText_writeString s)
  | @array depth vs _ ih =>
      intro n
      rw [write_array, Value.tree, itemTrees_eq (n + 1)]
      refine .array (List.forall_mem_map.mpr fun v hv => ih v hv (n + 1)) ?_
      rw [List.map_map]
      exact inside_writing n vs
  | @object depth ms _ ih =>
      intro n
      rw [write_object, Value.tree, memberTrees_eq (n + 1)]
      refine .object (List.forall_mem_map.mpr fun m hm => ih m hm (n + 1))
        (List.forall_mem_map.mpr fun m _ => memberText_writeMember (n + 1) m) ?_
      rw [List.map_map]
      exact inside_writing n ms

section Trees

variable {depth : Nat}

theorem itemValues?_itemTrees {vs : List Value} (h : ∀ v ∈ vs, v.tree.value? depth = some v) :
    itemValues? depth (itemTrees vs) = some vs := by
  induction vs with
  | nil => rfl
  | cons v vs ih =>
      obtain ⟨hv, hvs⟩ := List.forall_mem_cons.mp h
      rw [itemTrees, itemValues?, hv, ih hvs]
      rfl

theorem memberValues?_memberTrees {ms : List (String × Value)}
    (h : ∀ m ∈ ms, m.2.tree.value? depth = some m.2) :
    memberValues? depth (memberTrees ms) = some ms := by
  induction ms with
  | nil => rfl
  | cons m ms ih =>
      obtain ⟨hm, hms⟩ := List.forall_mem_cons.mp h
      rw [memberTrees, memberValues?, hm, ih hms]
      rfl

end Trees

/-- The tree of a value that is not nested too deep has this value. -/
theorem Plain.value?_tree {depth : Nat} {v : Value} (h : Plain depth v) :
    v.tree.value? depth = some v := by
  induction h with
  | null => rfl
  | boolean b => rfl
  | string s => rfl
  | array _ ih =>
      rw [Value.tree, Tree.value?, itemValues?_itemTrees ih]
      rfl
  | object _ ih =>
      rw [Value.tree, Tree.value?, memberValues?_memberTrees ih]
      rfl

theorem Plain.denotes_layout {depth : Nat} {v : Value} (h : Plain depth v) {behind : List Char}
    (hbehind : Spaces behind) : Denotes (v.layout.toList ++ behind) v.tree := by
  refine ⟨[], _, behind, spaces_nil, h.written 0, hbehind, ?_⟩
  rw [Value.layout, String.toList_ofList]
  rfl

theorem Plain.denotes {depth : Nat} {v : Value} (h : Plain depth v) :
    Denotes v.layout.toList v.tree := by
  have hdenotes := h.denotes_layout spaces_nil
  rwa [List.append_nil] at hdenotes

/-- **A laid-out value is read back**, also with white space behind it. -/
theorem parse?_layout {v : Value} (h : Plain maxDepth v) {behind : List Char}
    (hbehind : ∀ c ∈ behind, isSpace c = true) :
    parse? (v.layout.toList ++ behind) = some v := by
  have hspaces : Spaces behind := fun c hc => isSpace_iff.mp (hbehind c hc)
  rw [parse?_of_denotes (h.denotes_layout hspaces), h.value?_tree]

theorem parse?_layout_line {v : Value} (h : Plain maxDepth v) :
    parse? (v.layout ++ "\n").toList = some v := by
  rw [String.toList_append]
  exact parse?_layout h (by simp [isSpace])

/-! ## The schema of configurations -/

@[simp] theorem plain_string (depth : Nat) (s : String) : Plain depth (.string s) := .string s

@[simp] theorem plain_boolean (depth : Nat) (b : Bool) : Plain depth (.boolean b) := .boolean b

@[simp] theorem plain_array_iff {depth : Nat} {vs : List Value} :
    Plain (depth + 1) (.array vs) ↔ ∀ v ∈ vs, Plain depth v :=
  ⟨fun | .array h => h, .array⟩

@[simp] theorem plain_object_iff {depth : Nat} {ms : List (String × Value)} :
    Plain (depth + 1) (.object ms) ↔ ∀ m ∈ ms, Plain depth m.2 :=
  ⟨fun | .object h => h, .object⟩

open Config in
theorem plain_schema (depth : Nat) : Plain (depth + 4) Schema.value := by
  show Plain (depth + 1 + 1 + 1 + 1) _
  simp [Schema.value, Schema.properties, Schema.optionalType, Schema.optionalText,
    Schema.textItems, Schema.textType]

/-- The text of the schema file denotes the schema. -/
theorem parse?_schemaText : parse? Config.Schema.text.toList = some Config.Schema.value :=
  parse?_layout_line (plain_schema 123)

end AdvisoryGate.Json
