import AdvisoryGate.Proofs.NormalForm
import AdvisoryGate.Proofs.Spelling

/-!
# What is said about a blank id

A refused id has nothing in it that could be seen, so the message about it
shows its text quoted. The quoted form of any text can be read back
(`unquoted?_quoted`): an escape by a letter and a backslash are two
characters, the digits of a code point end at a brace, and everything else
stands for itself. Two texts are never shown alike.

White space has a narrower form (`ShownBlank`): of its characters only the
space stands for itself, and the escapes of the others are plain ASCII. So
the message is one line of characters that can be seen, whatever was
written; `message_tells_the_text` puts this together.
-/

namespace AdvisoryGate

namespace Text

/-! ## Reading quoted text -/

/-- The letters of escapes, with the characters that they stand for. -/
def escapeLetters : List (Char × Char) :=
  [('0', '\x00'), ('t', '\t'), ('n', '\n'), ('r', '\r'), ('"', '"'), ('\\', '\\')]

/-- What the characters read so far have announced. -/
inductive Stage
  | plain
  | escape
  | brace
  | code (value : Nat)

/-- The rest of a quoted text, up to and with the quote. -/
def readQuoted? : Stage → List Char → Option (List Char × List Char)
  | _, [] => none
  | .plain, c :: r =>
    if c = '"' then some ([], r)
    else if c = '\\' then readQuoted? .escape r
    else (readQuoted? .plain r).map fun (s, r) => (c :: s, r)
  | .escape, c :: r =>
    if c = 'u' then readQuoted? .brace r
    else (escapeLetters.lookup c).bind fun d =>
      (readQuoted? .plain r).map fun (s, r) => (d :: s, r)
  | .brace, c :: r => if c = '\x7b' then readQuoted? (.code 0) r else none
  | .code n, c :: r =>
    if c = '\x7d' then
      (scalar? n).bind fun d => (readQuoted? .plain r).map fun (s, r) => (d :: s, r)
    else (hexDigit? c).bind fun k => readQuoted? (.code (16 * n + k)) r

/-- The text that a quoted text shows. -/
def unquoted? (s : String) : Option String :=
  match s.toList with
  | '"' :: r =>
    match readQuoted? .plain r with
    | some (cs, []) => some (.ofList cs)
    | _ => none
  | _ => none

/-- The character is the digit of a value below 16, a letter in lower case. -/
def LowerHex (d : Char) (n : Nat) : Prop := (Toml.hexRow false)[n]? = some d

instance (d : Char) (n : Nat) : Decidable (LowerHex d n) :=
  inferInstanceAs (Decidable (_ = _))

section Reading

variable {c letter : Char} {r : List Char}

theorem lookup_of_shortEscape? (h : shortEscape? c = some letter) :
    letter ≠ 'u' ∧ escapeLetters.lookup letter = some c := by
  unfold shortEscape? at h
  split at h <;> first | (obtain rfl := Option.some.inj h; decide) | cases h

theorem ne_of_shortEscape?_eq_none (h : shortEscape? c = none) : c ≠ '"' ∧ c ≠ '\\' := by
  constructor <;> rintro rfl <;> cases h

theorem lowerHex_digitChar : ∀ n < 16, LowerHex n.digitChar n := by decide

/-- The digits of a number denote it, and only those of 0 begin with one. -/
theorem exists_hex_values (n : Nat) : ∃ ns, List.Forall₂ LowerHex (hex n) ns
    ∧ Toml.hexValue 0 ns = n ∧ (n ≠ 0 → ∃ k ks, ns = (k + 1) :: ks) := by
  induction n using Nat.strongRecOn with
  | ind n ih =>
      rw [hex, Nat.toDigits_eq_if (by decide)]
      split
      · rename_i hn
        refine ⟨[n], .cons (lowerHex_digitChar n hn) .nil, by simp [Toml.hexValue], fun hne => ?_⟩
        exact ⟨n - 1, [], by rw [Nat.sub_add_cancel (Nat.pos_of_ne_zero hne)]⟩
      · obtain ⟨ns, hns, hvalue, hfirst⟩ := ih (n / 16) (by omega)
        -- What is in front of the last digit is not 0, so neither is its first digit.
        obtain ⟨k, ks, rfl⟩ := hfirst (by omega)
        refine ⟨(k + 1) :: ks ++ [n % 16], List.rel_append hns
          (.cons (lowerHex_digitChar _ (Nat.mod_lt n (by decide))) .nil), ?_, fun _ => ⟨k, _, rfl⟩⟩
        have hfold : Toml.hexValue 0 ((k + 1) :: ks ++ [n % 16])
            = 16 * Toml.hexValue 0 ((k + 1) :: ks) + n % 16 := List.foldl_append
        rw [hfold, hvalue, Nat.div_add_mod]

theorem readQuoted?_digits {ds : List Char} {ns : List Nat} (h : List.Forall₂ LowerHex ds ns)
    (n : Nat) :
    readQuoted? (.code n) (ds ++ r) = readQuoted? (.code (Toml.hexValue n ns)) r := by
  induction h generalizing n with
  | nil => rfl
  | @cons d k ds ns hd _ ih =>
      have hdigit : hexDigit? d = some k := Toml.hexDigit?_of_isHex ⟨false, hd⟩
      have hbrace : d ≠ '\x7d' := by
        rintro rfl
        simp [hexDigit?] at hdigit
      rw [List.cons_append, readQuoted?, if_neg hbrace, hdigit, Option.bind_some, ih]
      rfl

/-- However a character is shown, it is read as what it is. -/
theorem readQuoted?_quoteChar (c : Char) (r : List Char) :
    readQuoted? .plain (quoteChar c ++ r)
      = (readQuoted? .plain r).map fun (s, r) => (c :: s, r) := by
  rw [quoteChar]
  split
  · rename_i letter hletter
    obtain ⟨hu, hlookup⟩ := lookup_of_shortEscape? hletter
    simp [readQuoted?, hu, hlookup]
  · rename_i hnone
    obtain ⟨hquote, hbackslash⟩ := ne_of_shortEscape?_eq_none hnone
    split
    · simp [readQuoted?, hquote, hbackslash]
    · obtain ⟨ns, hns, hvalue, -⟩ := exists_hex_values c.toNat
      have hcode : readQuoted? .plain (['\\', 'u', '\x7b'] ++ hex c.toNat ++ ['\x7d'] ++ r)
          = readQuoted? (.code 0) (hex c.toNat ++ ('\x7d' :: r)) := by
        simp [readQuoted?]
      rw [hcode, readQuoted?_digits hns, hvalue, readQuoted?, if_pos rfl, Toml.scalar?_toNat]
      rfl

theorem readQuoted?_body (cs r : List Char) :
    readQuoted? .plain (cs.flatMap quoteChar ++ '"' :: r) = some (cs, r) := by
  induction cs with
  | nil => simp [readQuoted?]
  | cons c cs ih => rw [List.flatMap_cons, List.append_assoc, readQuoted?_quoteChar, ih]; rfl

theorem toList_quoted (s : String) :
    (quoted s).toList = '"' :: (s.toList.flatMap quoteChar ++ ['"']) := by
  rw [quoted, String.toList_ofList, List.cons_append]

theorem unquoted?_quoted (s : String) : unquoted? (quoted s) = some s := by
  simp only [unquoted?, toList_quoted, readQuoted?_body, String.ofList_toList]

theorem quoted_injective : Function.Injective quoted := by
  intro s t h
  have hread := unquoted?_quoted s
  rw [h, unquoted?_quoted] at hread
  exact (Option.some.inj hread).symm

end Reading

/-! ## White space as it is shown -/

/-- A visible character of ASCII, or the space. -/
def isPrintable (c : Char) : Bool := 0x20 ≤ c.toNat && c.toNat ≤ 0x7e

/-- How a character of white space is shown: the space by itself, three by a
letter, and the others by the digits of their code points. -/
inductive ShownBlank : Char → List Char → Prop
  | space : ShownBlank ' ' [' ']
  | letter {c letter : Char} :
      (c, letter) ∈ [('\t', 't'), ('\n', 'n'), ('\r', 'r')] → ShownBlank c ['\\', letter]
  | code {c : Char} {ds : List Char} {k : Nat} {ks : List Nat} :
      c ∉ [' ', '\t', '\n', '\r'] → List.Forall₂ LowerHex ds ((k + 1) :: ks) →
      Toml.hexValue 0 ((k + 1) :: ks) = c.toNat →
        ShownBlank c (['\\', 'u', '\x7b'] ++ ds ++ ['\x7d'])

theorem shownBlank_quoteChar {c : Char} (h : WhiteSpace c) : ShownBlank c (quoteChar c) := by
  have hmem : c ∈ blanks := List.contains_iff_mem.mp (isBlankChar_iff.mpr h)
  have hcodes : (blanks.all fun c => [' ', '\t', '\n', '\r'].contains c
      || (c != '\x00' && shortEscape? c == none && !isVerbatim c)) = true := by decide +kernel
  by_cases hc : c ∈ [' ', '\t', '\n', '\r']
  · simp only [List.mem_cons, List.not_mem_nil, or_false] at hc
    rcases hc with rfl | rfl | rfl | rfl
    · exact .space
    · exact .letter (by simp)
    · exact .letter (by simp)
    · exact .letter (by simp)
  · -- All other white space is neither shown by a letter nor as it is.
    have hcode := List.all_eq_true.mp hcodes c hmem
    rw [List.contains_eq_mem, decide_eq_false hc] at hcode
    simp only [Bool.false_or, Bool.and_eq_true, bne_iff_ne, beq_iff_eq, Bool.not_eq_true'] at hcode
    obtain ⟨⟨hzero, hshort⟩, hverbatim⟩ := hcode
    obtain ⟨ns, hns, hvalue, hfirst⟩ := exists_hex_values c.toNat
    obtain ⟨k, ks, rfl⟩ := hfirst fun heq => hzero (Char.toNat_inj.mp heq)
    rw [quoteChar, hshort]
    simp only [hverbatim]
    exact .code hc hns hvalue

theorem all_isPrintable_of_lowerHex {ds : List Char} {ns : List Nat}
    (h : List.Forall₂ LowerHex ds ns) : ds.all isPrintable = true := by
  have hrow : (Toml.hexRow false).all isPrintable = true := by decide
  induction h with
  | nil => rfl
  | cons hd _ ih =>
      rw [List.all_cons, ih, List.all_eq_true.mp hrow _ (List.mem_of_getElem? hd)]
      rfl

theorem ShownBlank.all_isPrintable {c : Char} {w : List Char} (h : ShownBlank c w) :
    w.all isPrintable = true := by
  cases h with
  | space => rfl
  | letter h =>
      simp only [List.mem_cons, List.not_mem_nil, or_false, Prod.mk.injEq] at h
      rcases h with ⟨-, rfl⟩ | ⟨-, rfl⟩ | ⟨-, rfl⟩ <;> rfl
  | code _ hds _ =>
      rw [List.all_append, List.all_append, all_isPrintable_of_lowerHex hds]
      rfl

end Text

/-! ## The message -/

namespace BlankId

open Text (ShownBlank WhiteSpace isPrintable quoted unquoted?)

theorem message_eq (e : BlankId) :
    e.message = "advisory id must not be empty (got " ++ quoted e.raw ++ ")" := rfl

/-- The frame is the same for all texts. -/
theorem message_eq_iff {e e' : BlankId} : e.message = e'.message ↔ e.raw = e'.raw := by
  rw [← String.toList_inj]
  simp only [message_eq, String.toList_append, List.append_assoc, List.append_cancel_left_eq,
    List.append_cancel_right_eq, String.toList_inj, Text.quoted_injective.eq_iff]

theorem shown_quoted {raw : String} (h : ∀ c ∈ raw.toList, WhiteSpace c) :
    ∃ ws, (quoted raw).toList = '"' :: (ws.flatten ++ ['"'])
      ∧ List.Forall₂ ShownBlank raw.toList ws := by
  refine ⟨raw.toList.map Text.quoteChar, ?_, ?_⟩
  · rw [Text.toList_quoted, List.flatMap_def]
  · exact List.forall₂_map_right_iff.mpr
      (List.forall₂_same.mpr fun c hc => Text.shownBlank_quoteChar (h c hc))

theorem all_isPrintable_message {e : BlankId} (h : ∀ c ∈ e.raw.toList, WhiteSpace c) :
    e.message.toList.all isPrintable = true := by
  have hframe : ("advisory id must not be empty (got ".toList).all isPrintable = true := by decide
  have hshown : (e.raw.toList.flatMap Text.quoteChar).all isPrintable = true := by
    rw [List.all_flatMap, List.all_eq_true]
    exact fun c hc => (Text.shownBlank_quoteChar (h c hc)).all_isPrintable
  rw [message_eq, String.toList_append, String.toList_append, List.all_append, List.all_append,
    hframe, Text.toList_quoted, List.all_cons, List.all_append, hshown]
  rfl

/-- **The message about a blank id tells which text it was.** It is a single
line of printable ASCII. What stands in it between the quotes is the text,
the space kept and all other white space escaped, and can be read back; so
two refused texts have the same message only if they are the same. -/
theorem message_tells_the_text {raw : String} {e : BlankId}
    (h : AdvisoryId.ofText? raw = .error e) :
    (∀ c ∈ e.message.toList, ' '.toNat ≤ c.toNat ∧ c.toNat ≤ '~'.toNat)
      ∧ (∃ shown ws, e.message = "advisory id must not be empty (got " ++ shown ++ ")"
          ∧ shown.toList = '"' :: (ws.flatten ++ ['"']) ∧ List.Forall₂ ShownBlank raw.toList ws
          ∧ unquoted? shown = some raw)
      ∧ ∀ raw' e', AdvisoryId.ofText? raw' = .error e' → (e.message = e'.message ↔ raw = raw') := by
  obtain ⟨rfl, hblank⟩ := AdvisoryId.ofText?_error_iff.mp h
  obtain ⟨ws, hchars, hws⟩ := shown_quoted hblank
  refine ⟨fun c hc => ?_, ⟨quoted e.raw, ws, rfl, hchars, hws, Text.unquoted?_quoted e.raw⟩,
    fun raw' e' h' => ?_⟩
  · have hprintable := List.all_eq_true.mp (all_isPrintable_message hblank) c hc
    simpa [isPrintable] using hprintable
  · obtain ⟨rfl, -⟩ := AdvisoryId.ofText?_error_iff.mp h'
    exact message_eq_iff

/-- Four kinds of white space, and a text with one more space at its end. -/
theorem message_tells_the_text_of_four_blanks :
    let raw := " \t\u000b\u3000"
    let e : BlankId := ⟨raw⟩
    AdvisoryId.ofText? raw = .error e
      ∧ e.message = "advisory id must not be empty (got \" \\t\\u\x7bb\x7d\\u\x7b3000\x7d\")"
      ∧ (∀ c ∈ e.message.toList, ' '.toNat ≤ c.toNat ∧ c.toNat ≤ '~'.toNat)
      ∧ e.message ≠ (BlankId.mk (raw ++ " ")).message := by
  intro raw e
  have h : AdvisoryId.ofText? raw = .error e := by decide +kernel
  have hlonger : AdvisoryId.ofText? (raw ++ " ") = .error ⟨raw ++ " "⟩ := by decide +kernel
  obtain ⟨hprintable, -, hsame⟩ := message_tells_the_text h
  refine ⟨h, by decide +kernel, hprintable, fun heq => ?_⟩
  exact absurd ((hsame _ _ hlonger).mp heq) (by decide +kernel)

end BlankId

end AdvisoryGate
