import AdvisoryGate.Proofs.JsonGrammar
import Mathlib.Data.List.TakeWhile

/-!
# How the reader takes the tokens of JSON

The reader of strings and that of numbers against the grammar, both ways.
What is a string or a number by the grammar is read as what it denotes, or
refused if it denotes nothing (`string?_of_stringText`,
`number?_of_numeralText`). What is read at all is one by the grammar
(`exists_stringText`, `exists_numeralText`).

The reader of strings is a machine with modes. Between two parts of a string
it is in one of two kinds of modes (`modeOf`), and what lies between is one
step of it (`stringRest?_spelled`).
-/

namespace AdvisoryGate.Json

/-! ## Parts of a string -/

/-- The mode in which the reader is between two parts of a string. -/
def modeOf : Option Nat → Mode
  | none => .plain
  | some high => .low high false

/-- How the reader goes on behind a step. -/
def goOn (step : Option (List Char × Mode)) (r : List Char) : Option (List Char × List Char) :=
  step.bind fun x => (stringRest? x.2 r).map fun y => (x.1 ++ y.1, y.2)

section Strings

variable {mode mode' : Mode} {c : Char} {out r s rest : List Char}

theorem goOn_nil (r : List Char) : goOn (some ([], mode)) r = stringRest? mode r :=
  Option.map_id'

theorem goOn_eq_some_iff {step : Option (List Char × Mode)} : goOn step r = some (s, rest) ↔
    ∃ out mode s', step = some (out, mode) ∧ stringRest? mode r = some (s', rest)
      ∧ s = out ++ s' := by
  rw [goOn, Option.bind_eq_some_iff]
  constructor
  · rintro ⟨⟨out, mode⟩, hstep, h⟩
    obtain ⟨⟨s', rest'⟩, hrest, heq⟩ := Option.map_eq_some_iff.mp h
    obtain ⟨rfl, rfl⟩ := Prod.mk.inj heq
    exact ⟨out, mode, s', hstep, hrest, rfl⟩
  · rintro ⟨out, mode, s', hstep, hrest, rfl⟩
    exact ⟨(out, mode), hstep, by rw [hrest]; rfl⟩

/-- Inside an escape every character is one step. -/
theorem stringRest?_escaped (hmode : mode ≠ .plain) :
    stringRest? mode (c :: r) = goOn (escapeStep mode c) r := by
  rw [stringRest?]
  · cases escapeStep mode c with
    | none => rfl
    | some step =>
        show (stringRest? step.2 r).bind _ = (stringRest? step.2 r).map _
        cases stringRest? step.2 r <;> rfl
  · exact hmode

theorem stringRest?_backslash : stringRest? .plain ('\\' :: r) = stringRest? .escape r := by
  rw [stringRest?, if_neg (by decide), if_pos rfl]

theorem stringRest?_plain (hquote : c ≠ '"') (hbackslash : c ≠ '\\') (hc : 0x20 ≤ c.toNat) :
    stringRest? .plain (c :: r) = goOn (some ([c], .plain)) r := by
  rw [stringRest?, if_neg hquote, if_neg hbackslash, if_neg (Nat.not_lt.mpr hc)]
  rfl

theorem escapeLetter?_eq_some_iff {letter : Char} :
    escapeLetter? letter = some c ↔ (letter, c) ∈ shortEscapes := by
  constructor
  · intro h
    unfold escapeLetter? at h
    split at h <;> first | (obtain rfl := Option.some.inj h; decide) | cases h
  · intro h
    have hall : ∀ e ∈ shortEscapes, escapeLetter? e.1 = some e.2 := by decide
    exact hall _ h

theorem escapeStep_short {letter : Char} (h : (letter, c) ∈ shortEscapes) :
    escapeStep .escape letter = some ([c], .plain) := by
  have hu : letter ≠ 'u' := by
    rintro rfl
    simp [shortEscapes] at h
  rw [escapeStep, if_neg hu, escapeLetter?_eq_some_iff.mpr h]
  rfl

/-- The last of the digits of a unit completes it. -/
theorem escapeStep_digit {high : Option Nat} {left value n : Nat} (h : Text.hexDigit? c = some n) :
    escapeStep (.code high left value) c
      = if left ≤ 1 then codeStep high (16 * value + n)
        else some ([], .code high (left - 1) (16 * value + n)) := by
  rw [escapeStep, h]
  rfl

/-- The digits of a unit are read up to the last. -/
theorem stringRest?_digits {high : Option Nat} : ∀ {ds : List Char} {ns : List Nat} {value : Nat},
    List.Forall₂ Toml.IsHex ds ns → ds ≠ [] →
      stringRest? (.code high ds.length value) (ds ++ r)
        = goOn (codeStep high (Toml.hexValue value ns)) r
  | [], _, _, _, hne => absurd rfl hne
  | [d], _, value, .cons hd .nil, _ => by
      show stringRest? (.code high 1 value) (d :: r) = _
      rw [stringRest?_escaped Mode.noConfusion, escapeStep_digit (Toml.hexDigit?_of_isHex hd)]
      rfl
  | d :: d' :: ds, n :: ns, value, .cons hd hds, _ => by
      have ih := @stringRest?_digits high (d' :: ds) ns (16 * value + n) hds
        (List.cons_ne_nil _ _)
      rw [List.cons_append, stringRest?_escaped Mode.noConfusion,
        escapeStep_digit (Toml.hexDigit?_of_isHex hd), if_neg (by simp), goOn_nil]
      exact ih

theorem codeStep_eq (waiting : Option Nat) (n : Nat) :
    codeStep waiting n = ((Piece.unit n).adds? waiting).map fun x => (x.1, modeOf x.2) := by
  cases waiting with
  | none =>
      rw [codeStep, Piece.adds?]
      split
      · rfl
      · rw [Option.map_map]
        rfl
  | some high =>
      rw [codeStep, Piece.adds?]
      split
      · rw [Option.map_map]
        rfl
      · rfl

/-- A part of a string, however it is spelled, is one step. -/
theorem stringRest?_spelled {p : Piece} {w : List Char} (h : Spelled p w) (waiting : Option Nat) :
    stringRest? (modeOf waiting) (w ++ r)
      = goOn ((p.adds? waiting).map fun x => (x.1, modeOf x.2)) r := by
  cases waiting with
  | none =>
      cases h with
      | plain hquote hbackslash hc => exact stringRest?_plain hquote hbackslash hc
      | short hletter =>
          show stringRest? .plain ('\\' :: _ :: r) = _
          rw [stringRest?_backslash, stringRest?_escaped Mode.noConfusion,
            escapeStep_short hletter]
          rfl
      | @unit ds ns hlength hds =>
          have hne : ds ≠ [] := by
            rintro rfl
            cases hlength
          show stringRest? .plain ('\\' :: 'u' :: (ds ++ r)) = _
          rw [stringRest?_backslash, stringRest?_escaped Mode.noConfusion, ← codeStep_eq,
            ← stringRest?_digits hds hne, hlength]
          exact goOn_nil _
  | some high =>
      show stringRest? (.low high false) (w ++ r) = _
      cases h with
      | plain hquote hbackslash hc =>
          show stringRest? (.low high false) (_ :: r) = _
          rw [stringRest?_escaped Mode.noConfusion, escapeStep, if_neg hbackslash]
          rfl
      | @short letter c hletter =>
          have hu : letter ≠ 'u' := by
            rintro rfl
            simp [shortEscapes] at hletter
          show stringRest? (.low high false) ('\\' :: letter :: r) = _
          rw [stringRest?_escaped Mode.noConfusion, escapeStep, if_pos rfl, goOn_nil,
            stringRest?_escaped Mode.noConfusion, escapeStep, if_neg hu]
          rfl
      | @unit ds ns hlength hds =>
          have hne : ds ≠ [] := by
            rintro rfl
            cases hlength
          show stringRest? (.low high false) ('\\' :: 'u' :: (ds ++ r)) = _
          rw [stringRest?_escaped Mode.noConfusion, escapeStep, if_pos rfl, goOn_nil,
            stringRest?_escaped Mode.noConfusion, escapeStep, if_pos rfl, goOn_nil,
            ← codeStep_eq, ← stringRest?_digits hds hne, hlength]

theorem stringRest?_body {ps : List Piece} {body : List Char} (h : Body ps body)
    (rest : List Char) : ∀ waiting, stringRest? (modeOf waiting) (body ++ '"' :: rest)
      = (charsOf waiting ps).map (·, rest) := by
  induction h with
  | nil =>
      intro waiting
      cases waiting with
      | none => rfl
      | some high =>
          show stringRest? (.low high false) ('"' :: rest) = _
          rw [stringRest?_escaped Mode.noConfusion]
          rfl
  | @cons p ps w ws hw _ ih =>
      intro waiting
      rw [List.append_assoc, stringRest?_spelled hw, charsOf]
      cases p.adds? waiting with
      | none => rfl
      | some x =>
          show (stringRest? (modeOf x.2) _).map _ = ((charsOf x.2 ps).bind _).map _
          rw [ih]
          cases charsOf x.2 ps <;> rfl

/-- What is a string is read as the characters that it denotes. -/
theorem string?_of_stringText {s : Option String} {w : List Char} (h : StringText s w)
    (rest : List Char) : string? (w ++ rest) = s.map (·, rest) := by
  obtain ⟨ps, body, hbody, rfl, rfl⟩ := h
  have hread := stringRest?_body hbody rest none
  rw [List.cons_append, List.append_assoc, List.singleton_append, string?]
  show (stringRest? .plain _).map _ = _
  rw [show Mode.plain = modeOf none from rfl, hread]
  cases charsOf none ps <;> rfl

theorem isHex_of_hexDigit? {n : Nat} (h : Text.hexDigit? c = some n) : Toml.IsHex c n := by
  have hdecimal : ∀ k < 10, (Toml.hexRow false)[k]? = some (Char.ofNat ('0'.toNat + k)) := by
    decide
  have hlower : ∀ k < 6, (Toml.hexRow false)[k + 10]? = some (Char.ofNat ('a'.toNat + k)) := by
    decide
  have hupper : ∀ k < 6, (Toml.hexRow true)[k + 10]? = some (Char.ofNat ('A'.toNat + k)) := by
    decide
  have hrange : ∀ {first last : Char}, first ≤ c ∧ c ≤ last →
      first.toNat ≤ c.toNat ∧ c.toNat ≤ last.toNat := fun h => h
  have hchar : ∀ {first : Char}, first.toNat ≤ c.toNat →
      Char.ofNat (first.toNat + (c.toNat - first.toNat)) = c := by
    intro first hle
    rw [Nat.add_sub_of_le hle, Char.ofNat_toNat]
  have hnine : '9'.toNat = '0'.toNat + 9 := by decide
  have hf : 'f'.toNat = 'a'.toNat + 5 := by decide
  have hF : 'F'.toNat = 'A'.toNat + 5 := by decide
  rw [Text.hexDigit?] at h
  split at h
  · rename_i hc
    obtain ⟨hlow, hhigh⟩ := hrange hc
    obtain rfl := Option.some.inj h
    exact ⟨false, by rw [hdecimal _ (by omega), hchar hlow]⟩
  split at h
  · rename_i hc
    obtain ⟨hlow, hhigh⟩ := hrange hc
    obtain rfl := Option.some.inj h
    exact ⟨false, by rw [hlower _ (by omega), hchar hlow]⟩
  split at h
  · rename_i hc
    obtain ⟨hlow, hhigh⟩ := hrange hc
    obtain rfl := Option.some.inj h
    exact ⟨true, by rw [hupper _ (by omega), hchar hlow]⟩
  · cases h

/-- A unit that is read has all its digits. -/
theorem exists_digits {high : Option Nat} : ∀ {left value : Nat} {cs : List Char},
    stringRest? (.code high (left + 1) value) cs = some (s, rest) → ∃ ds ns r,
      ds.length = left + 1 ∧ List.Forall₂ Toml.IsHex ds ns ∧ cs = ds ++ r
        ∧ goOn (codeStep high (Toml.hexValue value ns)) r = some (s, rest)
  | _, _, [], h => by
      rw [stringRest?] at h
      cases h
  | left, value, c :: cs, h => by
      rw [stringRest?_escaped Mode.noConfusion] at h
      cases hc : Text.hexDigit? c with
      | none =>
          rw [escapeStep, hc] at h
          cases h
      | some n =>
          rw [escapeStep_digit hc] at h
          cases left with
          | zero =>
              exact ⟨[c], [n], cs, rfl, .cons (isHex_of_hexDigit? hc) .nil, rfl, h⟩
          | succ left =>
              rw [if_neg (by omega), goOn_nil] at h
              obtain ⟨ds, ns, r, hlength, hds, rfl, hgo⟩ := exists_digits h
              exact ⟨c :: ds, n :: ns, r, by rw [List.length_cons, hlength],
                .cons (isHex_of_hexDigit? hc) hds, rfl, hgo⟩

/-- Where a string is read on, there is its closing quote or one more part. -/
theorem exists_spelled {waiting : Option Nat} {cs : List Char}
    (h : stringRest? (modeOf waiting) cs = some (s, rest)) :
    (waiting = none ∧ cs = '"' :: rest ∧ s = [])
    ∨ ∃ p w r, Spelled p w ∧ cs = w ++ r
      ∧ goOn ((p.adds? waiting).map fun x => (x.1, modeOf x.2)) r = some (s, rest) := by
  cases cs with
  | nil =>
      rw [stringRest?] at h
      cases h
  | cons c cs =>
  cases waiting with
  | none =>
      rw [show modeOf none = Mode.plain from rfl] at h
      by_cases hquote : c = '"'
      · subst hquote
        rw [stringRest?, if_pos rfl] at h
        cases h
        exact .inl ⟨rfl, rfl, rfl⟩
      by_cases hbackslash : c = '\\'
      · subst hbackslash
        rw [stringRest?_backslash] at h
        cases cs with
        | nil =>
            rw [stringRest?] at h
            cases h
        | cons letter cs =>
            rw [stringRest?_escaped Mode.noConfusion, escapeStep] at h
            split at h
            · rename_i hu
              subst hu
              rw [goOn_nil] at h
              obtain ⟨ds, ns, r, hlength, hds, rfl, hgo⟩ := exists_digits h
              rw [codeStep_eq] at hgo
              exact .inr ⟨_, _, r, .unit hlength hds, rfl, hgo⟩
            · cases hletter : escapeLetter? letter with
              | none =>
                  rw [hletter] at h
                  cases h
              | some d =>
                  rw [hletter] at h
                  exact .inr ⟨_, _, cs, .short (escapeLetter?_eq_some_iff.mp hletter), rfl, h⟩
      by_cases hc : c.toNat < 0x20
      · rw [stringRest?, if_neg hquote, if_neg hbackslash, if_pos hc] at h
        cases h
      · rw [stringRest?_plain hquote hbackslash (Nat.not_lt.mp hc)] at h
        exact .inr ⟨_, _, cs, .plain hquote hbackslash (Nat.not_lt.mp hc), rfl, h⟩
  | some high =>
      rw [show modeOf (some high) = Mode.low high false from rfl,
        stringRest?_escaped Mode.noConfusion, escapeStep] at h
      split at h
      · rename_i hbackslash
        subst hbackslash
        rw [goOn_nil] at h
        cases cs with
        | nil =>
            rw [stringRest?] at h
            cases h
        | cons u cs =>
            rw [stringRest?_escaped Mode.noConfusion, escapeStep] at h
            split at h
            · rename_i hu
              subst hu
              rw [goOn_nil] at h
              obtain ⟨ds, ns, r, hlength, hds, rfl, hgo⟩ := exists_digits h
              rw [codeStep_eq] at hgo
              exact .inr ⟨_, _, r, .unit hlength hds, rfl, hgo⟩
            · cases h
      · cases h

theorem Spelled.ne_nil {p : Piece} {w : List Char} (h : Spelled p w) : w ≠ [] := by
  cases h <;> exact List.cons_ne_nil _ _

theorem exists_body {waiting : Option Nat} {cs s : List Char}
    (h : stringRest? (modeOf waiting) cs = some (s, rest)) :
    ∃ ps body, Body ps body ∧ charsOf waiting ps = some s ∧ cs = body ++ '"' :: rest := by
  rcases exists_spelled h with ⟨rfl, rfl, rfl⟩ | ⟨p, w, r, hw, hcs, hgo⟩
  · exact ⟨[], [], .nil, rfl, rfl⟩
  · obtain ⟨out, mode, s', hstep, hrest, rfl⟩ := goOn_eq_some_iff.mp hgo
    obtain ⟨⟨out', waiting'⟩, hadds, heq⟩ := Option.map_eq_some_iff.mp hstep
    obtain ⟨rfl, rfl⟩ := Prod.mk.inj heq
    -- A part is never empty, so what remains behind it is shorter.
    have hshorter : r.length < cs.length := by
      have hpos := List.length_pos_iff.mpr hw.ne_nil
      rw [hcs, List.length_append]
      omega
    obtain ⟨ps, body, hbody, hchars, rfl⟩ := exists_body hrest
    refine ⟨p :: ps, w ++ body, .cons hw hbody, ?_, by rw [hcs, List.append_assoc]⟩
    rw [charsOf, hadds]
    show (charsOf waiting' ps).bind _ = _
    rw [hchars]
    rfl
termination_by cs.length

/-- Whatever is read as a string is one, and denotes what is read. -/
theorem exists_stringText {cs : List Char} {name : String} (h : string? cs = some (name, rest)) :
    ∃ w, cs = w ++ rest ∧ StringText (some name) w := by
  unfold string? at h
  split at h
  · rename_i r
    obtain ⟨⟨s, rest'⟩, hread, heq⟩ := Option.map_eq_some_iff.mp h
    obtain ⟨rfl, rfl⟩ := Prod.mk.inj heq
    obtain ⟨ps, body, hbody, hchars, rfl⟩ := @exists_body rest' none r s hread
    refine ⟨'"' :: (body ++ ['"']), by simp, ps, body, hbody, ?_, rfl⟩
    rw [hchars]
    rfl
  · cases h

end Strings

/-! ## Numbers -/

/-- What follows a token does not go on with a number. -/
def Ends (rest : List Char) : Prop := ∀ c ∈ rest.head?, isNumberChar c = false

section Numbers

variable {n : Numeral} {cs ds w r rest : List Char} {p : Char → Bool}

theorem span_eq_iff : cs.span p = (w, r) ↔
    cs = w ++ r ∧ (∀ c ∈ w, p c = true) ∧ ∀ c ∈ r.head?, p c = false := by
  constructor
  · intro h
    rw [List.span_eq_takeWhile_dropWhile] at h
    obtain ⟨rfl, rfl⟩ := Prod.mk.inj h
    refine ⟨(List.takeWhile_append_dropWhile ..).symm, fun c hc => List.mem_takeWhile_imp hc, ?_⟩
    intro c hc
    have hnot := List.head?_dropWhile_not p cs
    rw [Option.mem_def.mp hc] at hnot
    exact hnot
  · rintro ⟨rfl, hw, hr⟩
    exact span_run hw hr

theorem isNumberChar_of_isDigit {c : Char} (h : isDigit c = true) : isNumberChar c = true := by
  rw [isNumberChar, h, Bool.true_or]

/-- The digits before the point. -/
theorem whole?_eq_some_iff : whole? cs = some (ds, r) ↔ cs = ds ++ r ∧ Digits ds
    ∧ (ds.head? = some '0' → ds = ['0']) ∧ ∀ c ∈ r.head?, isDigit c = false := by
  have hshape : whole? cs = some (ds, r) ↔ cs.span isDigit = (ds, r) ∧ ds ≠ []
      ∧ (ds.head? = some '0' → ds = ['0']) := by
    rw [whole?]
    split
    · rename_i h
      rw [h]
      constructor
      · intro h
        cases h
      · rintro ⟨h, hne, -⟩
        exact absurd (Prod.mk.inj h).1.symm hne
    · rename_i h
      rw [h]
      constructor
      · intro h
        cases h
      · rintro ⟨h, -, hzero⟩
        obtain ⟨rfl, -⟩ := Prod.mk.inj h
        cases hzero rfl
    · rename_i ds' r' hne hzero h
      rw [h, Option.some.injEq, Prod.mk.injEq]
      constructor
      · rintro ⟨rfl, rfl⟩
        refine ⟨⟨rfl, rfl⟩, hne, fun hhead => ?_⟩
        cases ds' with
        | nil => cases hhead
        | cons c tail =>
            obtain rfl := Option.some.inj hhead
            cases tail with
            | nil => rfl
            | cons d tail => exact absurd rfl (hzero d tail)
      · rintro ⟨h, -, -⟩
        exact h
  rw [hshape, span_eq_iff]
  constructor
  · rintro ⟨⟨hcs, hdigits, hr⟩, hne, hzero⟩
    exact ⟨hcs, ⟨hne, hdigits⟩, hzero, hr⟩
  · rintro ⟨hcs, ⟨hne, hdigits⟩, hzero, hr⟩
    exact ⟨⟨hcs, hdigits, hr⟩, hne, hzero⟩

theorem fraction?_of_fractionText {f : List Char} (h : FractionText ds f)
    (hr : ∀ c ∈ r.head?, isDigit c = false ∧ c ≠ '.') : fraction? (f ++ r) = some (ds, r) := by
  cases h with
  | none =>
      rw [List.nil_append]
      unfold fraction?
      split
      · exact absurd rfl (hr '.' rfl).2
      · rfl
  | digits hds =>
      obtain ⟨hne, hdigits⟩ := hds
      have hspan : (ds ++ r).span isDigit = (ds, r) := span_run hdigits fun c hc => (hr c hc).1
      rw [List.cons_append, fraction?, hspan]
      cases ds with
      | nil => exact absurd rfl hne
      | cons d ds => rfl

theorem exists_fractionText (h : fraction? cs = some (ds, r)) :
    ∃ f, FractionText ds f ∧ cs = f ++ r := by
  unfold fraction? at h
  split at h
  · rename_i cs
    split at h
    · cases h
    · rename_i ds' r' hne hspan
      obtain ⟨rfl, rfl⟩ := Prod.mk.inj (Option.some.inj h)
      obtain ⟨rfl, hdigits, -⟩ := span_eq_iff.mp hspan
      exact ⟨_, .digits ⟨hne, hdigits⟩, rfl⟩
  · obtain ⟨rfl, rfl⟩ := Prod.mk.inj (Option.some.inj h)
    exact ⟨[], .none, rfl⟩

/-- An exponent by its digits; whether it is one depends on these alone. -/
def powerOf (ds : List Char) (m : Int) : Option Int :=
  if ds.isEmpty || !ds.all isDigit then none else some m

theorem powerOf_eq_some_iff {m m' : Int} : powerOf ds m = some m' ↔ Digits ds ∧ m = m' := by
  rw [powerOf]
  split
  · rename_i h
    simp only [Bool.or_eq_true, List.isEmpty_iff, Bool.not_eq_true', ← Bool.not_eq_true,
      List.all_eq_true] at h
    constructor
    · intro h
      cases h
    · rintro ⟨⟨hne, hdigits⟩, -⟩
      rcases h with h | h
      · exact absurd h hne
      · exact absurd hdigits h
  · rename_i h
    simp only [Bool.or_eq_true, List.isEmpty_iff, Bool.not_eq_true', ← Bool.not_eq_true,
      List.all_eq_true, not_or, not_not] at h
    rw [Option.some.injEq]
    exact ⟨fun hm => ⟨h, hm⟩, fun hm => hm.2⟩

section Power

variable {e : Char} (he : e = 'e' ∨ e = 'E')

include he

theorem power?_minus : power? (e :: '-' :: ds) = powerOf ds (-(digitsValue ds : Int)) := by
  rw [power?, if_pos he]
  rfl

theorem power?_plus : power? (e :: '+' :: ds) = powerOf ds (digitsValue ds) := by
  rw [power?, if_pos he]
  rfl

theorem power?_bare (hminus : ∀ r, ds ≠ '-' :: r) (hplus : ∀ r, ds ≠ '+' :: r) :
    power? (e :: ds) = powerOf ds (digitsValue ds) := by
  rw [power?, if_pos he]
  · rfl
  · exact hminus
  · exact hplus

end Power

/-- No sign is a digit. -/
theorem Digits.ne_cons (h : Digits ds) {c : Char} (hc : isDigit c = false) (r : List Char) :
    ds ≠ c :: r := by
  rintro rfl
  rw [h.2 c (List.mem_cons_self ..)] at hc
  cases hc

theorem power?_eq_some_iff {m : Int} : power? cs = some m ↔ PowerText m cs := by
  constructor
  · intro h
    cases cs with
    | nil =>
        obtain rfl := Option.some.inj h
        exact .none
    | cons e cs =>
        by_cases he : e = 'e' ∨ e = 'E'
        · by_cases hminus : ∃ ds, cs = '-' :: ds
          · obtain ⟨ds, rfl⟩ := hminus
            rw [power?_minus he, powerOf_eq_some_iff] at h
            obtain ⟨hds, rfl⟩ := h
            exact .minus he hds
          by_cases hplus : ∃ ds, cs = '+' :: ds
          · obtain ⟨ds, rfl⟩ := hplus
            rw [power?_plus he, powerOf_eq_some_iff] at h
            obtain ⟨hds, rfl⟩ := h
            exact .plus he hds
          · rw [power?_bare he (fun r hr => hminus ⟨r, hr⟩) (fun r hr => hplus ⟨r, hr⟩),
              powerOf_eq_some_iff] at h
            obtain ⟨hds, rfl⟩ := h
            exact .bare he hds
        · unfold power? at h
          simp only [if_neg he] at h
          cases h
  · intro h
    cases h with
    | none => rfl
    | bare he hds =>
        rw [power?_bare he (hds.ne_cons (by decide)) (hds.ne_cons (by decide))]
        exact powerOf_eq_some_iff.mpr ⟨hds, rfl⟩
    | plus he hds => exact (power?_plus he).trans (powerOf_eq_some_iff.mpr ⟨hds, rfl⟩)
    | minus he hds => exact (power?_minus he).trans (powerOf_eq_some_iff.mpr ⟨hds, rfl⟩)

theorem PowerText.head {p : List Char} {m : Int} (h : PowerText m p) :
    ∀ c ∈ p.head?, isDigit c = false ∧ c ≠ '.' := by
  have hletter : ∀ {e : Char}, e = 'e' ∨ e = 'E' → isDigit e = false ∧ e ≠ '.' := by
    rintro e (rfl | rfl) <;> decide
  intro c hc
  cases h with
  | none => cases hc
  | bare he | plus he | minus he =>
      obtain rfl := Option.some.inj hc
      exact hletter he

/-- The digits before the point end there. -/
theorem FractionText.head {f p : List Char} {m : Int} (hf : FractionText ds f)
    (hp : PowerText m p) : ∀ c ∈ (f ++ p).head?, isDigit c = false := by
  intro c hc
  cases hf with
  | none => exact (hp.head c hc).1
  | digits =>
      obtain rfl := Option.some.inj hc
      decide

theorem decimal?_of_unsignedText (h : UnsignedText n w) : decimal? w =
    if isInRange (leading n.whole n.fraction n.power) then
      some ⟨digitsValue (n.whole ++ n.fraction), n.power - n.fraction.length⟩
    else none := by
  obtain ⟨f, p, hwhole, hzero, hf, hp, rfl⟩ := h
  have hwhole? := whole?_eq_some_iff.mpr ⟨rfl, hwhole, hzero, hf.head hp⟩
  have hpower? := power?_eq_some_iff.mpr hp
  rw [decimal?, hwhole?]
  show (fraction? (f ++ p)).bind _ = _
  rw [fraction?_of_fractionText hf hp.head]
  show (power? p).bind _ = _
  rw [hpower?]
  rfl

theorem exists_unsignedText {x : Double.Decimal} (h : decimal? w = some x) (negative : Bool) :
    ∃ n : Numeral, n.negative = negative ∧ UnsignedText n w
      ∧ n.value? = some (.number negative x) := by
  obtain ⟨⟨whole, r⟩, hwhole, hrest⟩ := Option.bind_eq_some_iff.mp h
  obtain ⟨⟨fraction, r'⟩, hfraction, hrest'⟩ := Option.bind_eq_some_iff.mp hrest
  obtain ⟨power, hpower, hvalue⟩ := Option.bind_eq_some_iff.mp hrest'
  obtain ⟨rfl, hdigits, hzero, -⟩ := whole?_eq_some_iff.mp hwhole
  obtain ⟨f, hf, rfl⟩ := exists_fractionText hfraction
  refine ⟨⟨negative, whole, fraction, power⟩, rfl,
    ⟨f, r', hdigits, hzero, hf, power?_eq_some_iff.mp hpower, rfl⟩, ?_⟩
  split at hvalue
  · rename_i hrange
    obtain rfl := Option.some.inj hvalue
    exact if_pos hrange
  · cases hvalue

/-- A number has no other characters, and its first one is visible. -/
theorem UnsignedText.isNumberChar (h : UnsignedText n w) :
    ∀ c ∈ w, isNumberChar c = true := by
  obtain ⟨negative, whole, fraction, power⟩ := n
  obtain ⟨f, p, hwhole, -, hf, hp, rfl⟩ := h
  have hdigits : ∀ {ds : List Char}, Digits ds → ∀ c ∈ ds, Json.isNumberChar c = true :=
    fun hds c hc => isNumberChar_of_isDigit (hds.2 c hc)
  have hletter : ∀ {e : Char}, e = 'e' ∨ e = 'E' → Json.isNumberChar e = true := by
    rintro e (rfl | rfl) <;> decide
  intro c hc
  rw [List.mem_append, List.mem_append] at hc
  rcases hc with hc | hc | hc
  · exact hdigits hwhole c hc
  · dsimp only at hf
    cases hf with
    | none => cases hc
    | digits hds =>
        rcases List.mem_cons.mp hc with rfl | hc
        · decide
        · exact hdigits hds c hc
  · dsimp only at hp
    cases hp with
    | none => cases hc
    | bare he hds =>
        rcases List.mem_cons.mp hc with rfl | hc
        · exact hletter he
        · exact hdigits hds c hc
    | plus he hds | minus he hds =>
        rcases List.mem_cons.mp hc with rfl | hc
        · exact hletter he
        rcases List.mem_cons.mp hc with rfl | hc
        · decide
        · exact hdigits hds c hc

theorem UnsignedText.cons (h : UnsignedText n w) :
    ∃ c t, w = c :: t ∧ isDigit c = true := by
  obtain ⟨f, p, ⟨hne, hdigits⟩, -, -, -, rfl⟩ := h
  obtain ⟨c, t, heq⟩ := List.exists_cons_of_ne_nil hne
  rw [heq]
  exact ⟨c, t ++ (f ++ p), rfl, hdigits c (by rw [heq]; exact List.mem_cons_self ..)⟩

theorem NumeralText.isNumberChar (h : NumeralText n w) : ∀ c ∈ w, isNumberChar c = true := by
  obtain ⟨w', hw', rfl⟩ := h
  intro c hc
  rcases List.mem_append.mp hc with hc | hc
  · split at hc
    · obtain rfl := List.mem_singleton.mp hc
      decide
    · cases hc
  · exact hw'.isNumberChar c hc

theorem NumeralText.cons (h : NumeralText n w) :
    ∃ c t, w = c :: t ∧ (c = '-' ∨ isDigit c = true) := by
  obtain ⟨w', hw', rfl⟩ := h
  split
  · exact ⟨'-', w', rfl, .inl rfl⟩
  · obtain ⟨c, t, rfl, hc⟩ := hw'.cons
    exact ⟨c, t, rfl, .inr hc⟩

theorem number?_minus (h : cs.span isNumberChar = ('-' :: w, r)) :
    number? cs = (decimal? w).map fun x => (.number true x, r) := by
  rw [number?, h]
  rfl

theorem number?_bare (h : cs.span isNumberChar = (w, r)) (hminus : ∀ t, w ≠ '-' :: t) :
    number? cs = (decimal? w).map fun x => (.number false x, r) := by
  rw [number?, h]
  dsimp only
  split
  · exact absurd rfl (hminus _)
  · rfl

/-- What is a number is read as its value, if it has one. -/
theorem number?_of_numeralText (h : NumeralText n w) (hrest : Ends rest) :
    number? (w ++ rest) = n.value?.map (·, rest) := by
  have hspan := span_run h.isNumberChar hrest
  obtain ⟨w', hw', rfl⟩ := h
  obtain ⟨negative, whole, fraction, power⟩ := n
  cases negative with
  | true =>
      rw [number?_minus hspan]
      show (decimal? w').map _ = _
      rw [decimal?_of_unsignedText hw', Numeral.value?]
      split <;> rfl
  | false =>
      obtain ⟨c, t, heq, hc⟩ := hw'.cons
      have hminus : ∀ t, (if false = true then ['-'] else []) ++ w' ≠ '-' :: t := by
        rintro t ht
        rw [heq] at ht
        obtain rfl := (List.cons.inj ht).1
        cases hc
      rw [number?_bare hspan hminus]
      show (decimal? w').map _ = _
      rw [decimal?_of_unsignedText hw', Numeral.value?]
      split <;> rfl

/-- Whatever is read as a number is one, with the value that is read. -/
theorem exists_numeralText {v : Value} (h : number? cs = some (v, rest)) :
    ∃ n w, NumeralText n w ∧ n.value? = some v ∧ cs = w ++ rest := by
  cases hspan : cs.span Json.isNumberChar with
  | mk w r =>
      obtain ⟨rfl, -, -⟩ := span_eq_iff.mp hspan
      by_cases hminus : ∃ t, w = '-' :: t
      · obtain ⟨w', rfl⟩ := hminus
        rw [number?_minus hspan] at h
        obtain ⟨x, hx, heq⟩ := Option.map_eq_some_iff.mp h
        obtain ⟨rfl, rfl⟩ := Prod.mk.inj heq
        obtain ⟨n, hn, hw', hvalue⟩ := exists_unsignedText hx true
        exact ⟨n, '-' :: w', ⟨w', hw', by rw [hn]; rfl⟩, hvalue, rfl⟩
      · rw [number?_bare hspan fun t ht => hminus ⟨t, ht⟩] at h
        obtain ⟨x, hx, heq⟩ := Option.map_eq_some_iff.mp h
        obtain ⟨rfl, rfl⟩ := Prod.mk.inj heq
        obtain ⟨n, hn, hw', hvalue⟩ := exists_unsignedText hx false
        exact ⟨n, w, ⟨w, hw', by rw [hn]; rfl⟩, hvalue, rfl⟩

end Numbers

end AdvisoryGate.Json
