import AdvisoryGate.Proofs.Layout
import Mathlib.Algebra.Group.Nat.Defs

/-!
# Spellings of texts and lists

How a text can be written as a string in double quotes, and a list of texts
as an array. Each character has a choice of its own (`Spelled`): it stands
for itself where the format lets it, or is written as any escape that
denotes it. Between the items of an array there may be gaps, and a comma
may follow the last one.

As in the layout, a writing is related to what follows it. The readers take
exactly the writing and leave what follows: `value?_of_quoted` for a text,
`value?_of_listed` for a list, `assignment?_of_bare` for either behind a
bare key. At the end, everything is shown to have a spelling.
-/

namespace AdvisoryGate.Toml

/-! ## The grammar -/

/-- The hexadecimal digits of one case. -/
def hexRow (upper : Bool) : List Char :=
  (if upper then "0123456789ABCDEF" else "0123456789abcdef").toList

/-- The character is the hexadecimal digit with a value, in either case. -/
def IsHex (c : Char) (n : Nat) : Prop := ∃ upper, (hexRow upper)[n]? = some c

/-- The number that hexadecimal digits denote behind the digits of another. -/
def hexValue (before : Nat) (ns : List Nat) : Nat := ns.foldl (fun v n => 16 * v + n) before

/-- The escapes of one letter, with what they denote. -/
def shortEscapes : List (Char × Char) :=
  [('b', '\u0008'), ('t', '\t'), ('n', '\n'), ('f', '\u000c'), ('r', '\r'), ('e', '\u001b'),
   ('"', '"'), ('\\', '\\')]

/-- The letters that announce a code point, with the number of its digits. -/
def codeEscapes : List (Char × Nat) := [('x', 2), ('u', 4), ('U', 8)]

/-- A way to write a character between double quotes. -/
inductive Spelled (c : Char) : List Char → Prop
  | plain : IsPrinting c → c ≠ '"' → c ≠ '\\' → Spelled c [c]
  | short {letter : Char} : (letter, c) ∈ shortEscapes → Spelled c ['\\', letter]
  | code {letter : Char} {ds : List Char} {ns : List Nat} :
      (letter, ds.length) ∈ codeEscapes → List.Forall₂ IsHex ds ns → hexValue 0 ns = c.toNat →
        Spelled c ('\\' :: letter :: ds)

/-- A way to write characters between double quotes. -/
inductive Body : List Char → List Char → Prop
  | nil : Body [] []
  | cons {c : Char} {cs w ws : List Char} :
      Spelled c w → Body cs ws → Body (c :: cs) (w ++ ws)

/-- A text in double quotes, and what follows it. -/
def Quoted (s : String) (text rest : List Char) : Prop :=
  ∃ body, Body s.toList body ∧ text = '"' :: (body ++ '"' :: rest)

/-- The items of a list, behind the opening bracket, and what follows the
closing one. -/
inductive Listed : List String → List Char → List Char → Prop
  | close {text rest : List Char} : Gap text (']' :: rest) → Listed [] text rest
  | last {s : String} {text item behind rest : List Char} :
      Gap text item → Quoted s item behind → Gap behind (']' :: rest) → Listed [s] text rest
  | more {s : String} {ss : List String} {text item behind text' rest : List Char} :
      Gap text item → Quoted s item behind → Gap behind (',' :: text') → Listed ss text' rest →
        Listed (s :: ss) text rest

/-! ## Strings -/

section Strings

variable {c : Char} {rest : List Char}

theorem hexDigit?_of_isHex {n : Nat} (h : IsHex c n) : Text.hexDigit? c = some n := by
  obtain ⟨upper, h⟩ := h
  have hrow : (hexRow upper).map Text.hexDigit? = (List.range 16).map some := by
    cases upper <;> rfl
  have hn := congrArg (·[n]?) hrow
  simp only [List.getElem?_map, h, Option.map_some] at hn
  obtain ⟨k, hk, hdigit⟩ := Option.map_eq_some_iff.mp hn.symm
  obtain ⟨hlt, rfl⟩ := List.getElem?_eq_some_iff.mp hk
  rw [← hdigit, List.getElem_range hlt]

theorem scalar?_toNat (c : Char) : Text.scalar? c.toNat = some c := by
  have hvalid : c.toNat.isValidChar := c.valid
  rw [Text.scalar?, dif_pos hvalid]
  rfl

/-- What an announced character adds, and how the string goes on. -/
theorem basicString?_announced {mode mode' : Mode} {out : List Char} (hmode : mode ≠ .plain)
    (h : escapeStep mode c = some (out, mode')) :
    basicString? mode (c :: rest)
      = (basicString? mode' rest).map fun (s, r) => (out ++ s, r) := by
  rw [basicString?, h]
  · show (basicString? mode' rest).bind _ = _
    cases basicString? mode' rest <;> rfl
  · exact hmode

theorem escapeStep_digit {left before n : Nat} (h : IsHex c n) (hleft : 1 < left) :
    escapeStep (.code left before) c = some ([], .code (left - 1) (16 * before + n)) := by
  rw [escapeStep, hexDigit?_of_isHex h]
  show (if left ≤ 1 then _ else _) = _
  rw [if_neg (by omega)]
  rfl

theorem escapeStep_lastDigit {before n : Nat} {d : Char} (h : IsHex d n)
    (hvalue : 16 * before + n = c.toNat) :
    escapeStep (.code 1 before) d = some ([c], .plain) := by
  rw [escapeStep, hexDigit?_of_isHex h]
  show (Text.scalar? (16 * before + n)).bind _ = _
  rw [hvalue, scalar?_toNat]
  rfl

/-- How a string goes on behind a character, whatever the spelling of the
character was. -/
def readBehind (c : Char) (rest : List Char) : Option (List Char × List Char) :=
  (basicString? .plain rest).map fun (s, r) => (c :: s, r)

/-- Digits of a code point are read up to the last, and with it the
character that has the code point. -/
theorem basicString?_code : ∀ {ds : List Char} {ns : List Nat} {before : Nat},
    List.Forall₂ IsHex ds ns → ds ≠ [] → hexValue before ns = c.toNat →
      basicString? (.code ds.length before) (ds ++ rest) = readBehind c rest
  | [], _, _, _, hne, _ => absurd rfl hne
  | [d], [n], before, h, _, hvalue => by
      obtain ⟨hd, -⟩ := List.forall₂_cons.mp h
      exact basicString?_announced Mode.noConfusion (escapeStep_lastDigit hd hvalue)
  | d :: d' :: ds, n :: ns, before, h, _, hvalue => by
      obtain ⟨hd, hds⟩ := List.forall₂_cons.mp h
      have ih := @basicString?_code (d' :: ds) ns (16 * before + n) hds
        (List.cons_ne_nil _ _) hvalue
      rw [List.cons_append, basicString?_announced Mode.noConfusion
        (escapeStep_digit hd (by simp))]
      show (basicString? (.code (ds.length + 1) _) _).map _ = _
      rw [← ih]
      simp

theorem escapeStep_short : ∀ e ∈ shortEscapes,
    escapeStep .escape e.1 = some ([e.2], .plain) := by decide

theorem escapeStep_codeLetter : ∀ e ∈ codeEscapes,
    escapeStep .escape e.1 = some ([], .code e.2 0) := by decide

/-- Every spelling of a character is read as the character. -/
theorem basicString?_spelled {w : List Char} (h : Spelled c w) :
    basicString? .plain (w ++ rest) = readBehind c rest := by
  have hslash (r : List Char) : basicString? .plain ('\\' :: r) = basicString? .escape r := by
    rw [basicString?, if_neg (by decide), if_pos rfl]
  cases h with
  | plain hc hquote hbackslash =>
      show basicString? .plain (c :: rest) = _
      rw [basicString?, if_neg hquote, if_neg hbackslash, if_pos (isPlain_iff.mpr hc)]
      rfl
  | @short letter hmem =>
      show basicString? .plain ('\\' :: letter :: rest) = _
      rw [hslash, basicString?_announced Mode.noConfusion (escapeStep_short _ hmem)]
      rfl
  | @code letter ds ns hmem hds hvalue =>
      have hne : ds ≠ [] := by
        rintro rfl
        simp [codeEscapes] at hmem
      show basicString? .plain ('\\' :: letter :: (ds ++ rest)) = _
      rw [hslash, basicString?_announced Mode.noConfusion (escapeStep_codeLetter _ hmem)]
      show (basicString? (.code ds.length 0) (ds ++ rest)).map _ = _
      rw [basicString?_code hds hne hvalue]
      simp

theorem basicString?_body {s body : List Char} (h : Body s body) (rest : List Char) :
    basicString? .plain (body ++ '"' :: rest) = some (s, rest) := by
  induction h with
  | nil => simp [basicString?]
  | cons hw _ ih =>
      rw [List.append_assoc, basicString?_spelled hw, readBehind, ih]
      rfl

/-- No spelling begins with a quote: that would be the end of the string. -/
theorem Body.head {s body : List Char} (h : Body s body) : body.head? ≠ some '"' := by
  cases h with
  | nil => exact fun h => nomatch h
  | cons hw _ =>
      cases hw with
      | plain _ hquote _ => exact fun h => hquote (Option.some.inj h)
      | short | code => exact fun h => absurd (Option.some.inj h) (by decide)

/-- A quoted text is read as it was meant. What follows it may not be one
more quote, with which an empty text would look like triple quotes. -/
theorem string?_of_quoted {s : String} {text rest : List Char} (h : Quoted s text rest)
    (hrest : rest.head? ≠ some '"') : string? text = some (s, rest) := by
  obtain ⟨body, hbody, rfl⟩ := h
  have hsingle : ∀ r, '"' :: (body ++ '"' :: rest) ≠ '"' :: '"' :: '"' :: r := by
    intro r heq
    have htail := List.tail_eq_of_cons_eq heq
    cases body with
    | nil =>
        have hquote := List.tail_eq_of_cons_eq htail
        rw [hquote] at hrest
        exact hrest rfl
    | cons c body =>
        have hhead := List.head_eq_of_cons_eq htail
        rw [hhead] at hbody
        exact hbody.head rfl
  rw [string?]
  · rw [lineString?, basicString?_body hbody]
    show some (String.ofList s.toList, rest) = _
    rw [String.ofList_toList]
  · exact hsingle
  · exact fun _ h => nomatch h

theorem Quoted.cons {s : String} {text rest : List Char} (h : Quoted s text rest) :
    ∃ r, text = '"' :: r ∧ rest.length < r.length := by
  obtain ⟨body, -, rfl⟩ := h
  refine ⟨_, rfl, ?_⟩
  rw [List.length_append, List.length_cons]
  omega

theorem value?_of_quoted {s : String} {text rest : List Char} (h : Quoted s text rest)
    (hrest : rest.head? ≠ some '"') (depth : Nat) :
    value? depth text = some (⟨⟨text, rest⟩, .string s⟩, rest) := by
  have hscalar : scalarValue? text = some (⟨⟨text, rest⟩, .string s⟩, rest) := by
    rw [scalarValue?, string?_of_quoted h hrest]
  obtain ⟨r, rfl, -⟩ := h.cons
  cases depth with
  | zero => exact hscalar
  | succ depth => exact hscalar

end Strings

/-! ## Arrays -/

section Arrays

variable {α : Type} {item? : List Char → Option (α × List Char)} {fuel : Nat}
  {text text' item behind rest : List Char} {x : α} {xs : List α}

theorem items?_close (hgap : skipGap false text = some (']' :: rest)) :
    items? item? ']' (fuel + 1) text = some ([], rest) := by
  rw [items?, hgap]
  rfl

theorem items?_last (hgap : skipGap false text = some item) (hitem : item? item = some (x, behind))
    (hhead : ∃ c r, item = c :: r ∧ c ≠ ']')
    (hbehind : skipGap false behind = some (']' :: rest)) :
    items? item? ']' (fuel + 1) text = some ([x], rest) := by
  obtain ⟨c, r, rfl, hc⟩ := hhead
  rw [items?, hgap]
  show (if c = ']' then _ else _) = _
  rw [if_neg hc, hitem]
  show (skipGap false behind).bind _ = _
  rw [hbehind]
  rfl

theorem items?_more (hgap : skipGap false text = some item) (hitem : item? item = some (x, behind))
    (hhead : ∃ c r, item = c :: r ∧ c ≠ ']')
    (hbehind : skipGap false behind = some (',' :: text'))
    (hxs : items? item? ']' fuel text' = some (xs, rest)) :
    items? item? ']' (fuel + 1) text = some (x :: xs, rest) := by
  obtain ⟨c, r, rfl, hc⟩ := hhead
  rw [items?, hgap]
  show (if c = ']' then _ else _) = _
  rw [if_neg hc, hitem]
  show (skipGap false behind).bind _ = _
  rw [hbehind]
  show (items? item? ']' fuel text').bind _ = _
  rw [hxs]
  rfl

end Arrays

theorem Gap.length {text rest : List Char} (h : Gap text rest) : rest.length ≤ text.length := by
  induction h with
  | nil => exact Nat.le_refl _
  | space _ _ ih | lf _ ih => exact Nat.le_succ_of_le ih
  | crlf _ ih => exact Nat.le_succ_of_le (Nat.le_succ_of_le ih)
  | comment _ hz _ ih =>
      rw [List.length_cons, List.length_append]
      rcases hz.length with rfl | hlt
      · obtain rfl := hz.rest_of_nil
        exact Nat.le_trans ih (Nat.zero_le _)
      · omega

/-- A gap before a quote, a comma or a bracket is skipped. -/
theorem Gap.skipGap_cons {text rest : List Char} {c : Char} (h : Gap text (c :: rest))
    (hc : c ∈ ['"', ',', ']']) : Toml.skipGap false text = some (c :: rest) := by
  refine h.skipGap fun d hd hgap => ?_
  obtain rfl := Option.mem_some.mp hd
  rcases hgap with rfl | rfl | rfl | rfl | rfl <;> exact absurd hc (by decide)

/-- What begins with a gap before a comma or a bracket begins with no quote. -/
theorem Gap.head_ne_quote {text rest : List Char} {c : Char} (h : Gap text (c :: rest))
    (hc : c ≠ '"') : text.head? ≠ some '"' := by
  intro hquote
  cases h with
  | nil => exact hc (Option.some.inj hquote)
  | space hspace _ =>
      obtain rfl := Option.some.inj hquote
      rcases hspace with h | h <;> exact absurd h (by decide)
  | lf | crlf | comment => exact absurd (Option.some.inj hquote) (by decide)

theorem item_length {s : String} {text item behind rest : List Char} {c : Char}
    (hgap : Gap text item) (hitem : Quoted s item behind) (hbehind : Gap behind (c :: rest)) :
    rest.length < text.length := by
  have hbefore := hgap.length
  have hafter := hbehind.length
  obtain ⟨r, rfl, hlt⟩ := hitem.cons
  simp only [List.length_cons] at hbefore hafter
  omega

/-- The items of an array are read in order, with nothing lost or added. -/
theorem items?_of_listed {l : List String} {text rest : List Char} (depth : Nat)
    (h : Listed l text rest) : ∀ fuel, text.length ≤ fuel →
      ∃ items, items? (value? depth) ']' (fuel + 1) text = some (items, rest)
        ∧ items.map (·.value) = l.map .string := by
  induction h with
  | close hgap =>
      intro fuel _
      exact ⟨[], items?_close (hgap.skipGap_cons (by decide)), rfl⟩
  | last hgap hitem hbehind =>
      intro fuel _
      have hread := value?_of_quoted hitem (hbehind.head_ne_quote (by decide)) depth
      obtain ⟨r, rfl, -⟩ := hitem.cons
      exact ⟨_, items?_last (hgap.skipGap_cons (by decide)) hread ⟨_, _, rfl, by decide⟩
        (hbehind.skipGap_cons (by decide)), rfl⟩
  | @more s ss text item behind text' rest hgap hitem hbehind _ ih =>
      intro fuel hfuel
      have hread := value?_of_quoted hitem (hbehind.head_ne_quote (by decide)) depth
      have hlt := item_length hgap hitem hbehind
      obtain ⟨r, rfl, -⟩ := hitem.cons
      obtain ⟨n, rfl⟩ : ∃ n, fuel = n + 1 := ⟨fuel - 1, by omega⟩
      obtain ⟨items, hitems, hvalues⟩ := ih n (by omega)
      refine ⟨_, items?_more (hgap.skipGap_cons (by decide)) hread ⟨_, _, rfl, by decide⟩
        (hbehind.skipGap_cons (by decide)) hitems, ?_⟩
      rw [List.map_cons, List.map_cons, hvalues]

theorem value?_of_listed {l : List String} {text rest : List Char} (depth : Nat)
    (h : Listed l text rest) :
    ∃ items, value? (depth + 1) ('[' :: text)
        = some (⟨⟨'[' :: text, rest⟩, .array .listed items⟩, rest)
      ∧ items.map (·.value) = l.map .string := by
  obtain ⟨items, hitems, hvalues⟩ := items?_of_listed depth h text.length (Nat.le_refl _)
  refine ⟨items, ?_, hvalues⟩
  rw [value?]
  show (items? (value? depth) ']' (text.length + 1) text).bind _ = _
  rw [hitems]
  rfl

theorem Listed.length {l : List String} {text rest : List Char} (h : Listed l text rest) :
    rest.length < text.length := by
  induction h with
  | close hgap =>
      have hle := hgap.length
      rwa [List.length_cons] at hle
  | last hgap hitem hbehind => exact item_length hgap hitem hbehind
  | more hgap hitem hbehind _ ih => exact Nat.lt_trans ih (item_length hgap hitem hbehind)

/-! ## Assignments -/

section Assignments

variable {w sp sp' text rest : List Char} {c : Char}

theorem key?_of_bare (hne : w ≠ []) (hw : ∀ c ∈ w, isBare c = true)
    (hrest : ∀ c ∈ rest.head?, isBare c = false) :
    key? (w ++ rest) = some (⟨.ofList w, w ++ rest, rest⟩, rest) := by
  have hspan : (w ++ rest).span isBare = (w, rest) := span_run hw hrest
  have hempty : w.isEmpty = false := by rwa [List.isEmpty_eq_false_iff]
  rw [key?, hspan]
  show (if w.isEmpty = true then _ else _) = _
  rw [hempty, if_neg Bool.false_ne_true]

theorem skipSpaces_cons (hsp : Spaces sp) (hc : isSpace c = false) :
    skipSpaces (sp ++ c :: rest) = c :: rest := by
  refine skipSpaces_run hsp fun d hd => ?_
  obtain rfl := Option.mem_some.mp hd
  exact hc

theorem path?_of_bare (hne : w ≠ []) (hw : ∀ c ∈ w, isBare c = true) (hsp : Spaces sp) :
    ∃ k : Key, k.name = .ofList w
      ∧ path? maxDepth (w ++ (sp ++ '=' :: rest)) = some ([k], sp ++ '=' :: rest) := by
  have hend : ∀ d ∈ (sp ++ '=' :: rest).head?, isBare d = false := by
    intro d hd
    cases sp with
    | nil =>
        obtain rfl := Option.mem_some.mp hd
        rfl
    | cons e sp =>
        obtain rfl := Option.mem_some.mp hd
        rcases hsp e (List.mem_cons_self ..) with rfl | rfl <;> rfl
  refine ⟨⟨.ofList w, w ++ (sp ++ '=' :: rest), sp ++ '=' :: rest⟩, rfl, ?_⟩
  rw [maxDepth, path?, key?_of_bare hne hw hend]
  simp only [Option.bind_eq_bind, Option.bind_some, skipSpaces_cons hsp (rfl : isSpace '=' = false)]
  rfl

theorem assignment?_of_bare {value? : List Char → Option (Located Value × List Char)}
    {v : Located Value} (hne : w ≠ []) (hw : ∀ c ∈ w, isBare c = true)
    (hsp : Spaces sp) (hsp' : Spaces sp') (hc : isSpace c = false)
    (hvalue : value? (c :: text) = some (v, rest)) :
    ∃ k : Key, k.name = .ofList w ∧
      assignment? (some ∘ skipSpaces) value? (w ++ (sp ++ '=' :: (sp' ++ c :: text)))
        = some (⟨[k], v⟩, rest) := by
  obtain ⟨k, hk, hpath⟩ := @path?_of_bare w sp (sp' ++ c :: text) hne hw hsp
  refine ⟨k, hk, ?_⟩
  rw [assignment?, hpath]
  simp only [Option.bind_eq_bind, Option.bind_some, Function.comp_apply,
    skipSpaces_cons hsp (rfl : isSpace '=' = false), skipSpaces_cons hsp' hc, hvalue]
  rfl

theorem lineContent?_of_bare (hc : isBare c = true) :
    lineContent? (c :: text)
      = (assignment? (some ∘ skipSpaces) (value? maxDepth) (c :: text)).map
          fun (a, r) => (.assignment a, r) := by
  have hne : ∀ d, isBare d = false → c ≠ d := by
    rintro d hd rfl
    rw [hc] at hd
    cases hd
  rw [lineContent?]
  · exact fun h => nomatch h
  all_goals
    intro r h
    exact absurd (List.head_eq_of_cons_eq h) (hne _ rfl)

end Assignments

/-! ## Everything can be written -/

theorem exists_hex (k : Nat) : ∀ n, n < 16 ^ k →
    ∃ ds ns, ds.length = k ∧ List.Forall₂ IsHex ds ns ∧ hexValue 0 ns = n := by
  induction k with
  | zero =>
      intro n hn
      rw [Nat.pow_zero, Nat.lt_one_iff] at hn
      exact ⟨[], [], rfl, .nil, hn.symm⟩
  | succ k ih =>
      intro n hn
      have hrow : n % 16 < (hexRow true).length := Nat.mod_lt n (by decide)
      obtain ⟨ds, ns, hlength, hds, hvalue⟩ := ih (n / 16) (by rw [Nat.pow_succ] at hn; omega)
      refine ⟨ds ++ [(hexRow true)[n % 16]], ns ++ [n % 16], ?_, ?_, ?_⟩
      · rw [List.length_append, hlength, List.length_singleton]
      · exact List.rel_append hds (.cons ⟨true, List.getElem?_eq_getElem hrow⟩ .nil)
      · have hfold : hexValue 0 (ns ++ [n % 16]) = 16 * hexValue 0 ns + n % 16 :=
          List.foldl_append
        rw [hfold, hvalue, Nat.div_add_mod]

theorem exists_spelled (c : Char) : ∃ w, Spelled c w := by
  have hbound : c.toNat < 16 ^ 8 := c.val.toNat_lt
  obtain ⟨ds, ns, hlength, hds, hvalue⟩ := exists_hex 8 c.toNat hbound
  exact ⟨'\\' :: 'U' :: ds, .code (by rw [hlength]; decide) hds hvalue⟩

theorem exists_body : ∀ s : List Char, ∃ body, Body s body
  | [] => ⟨[], .nil⟩
  | c :: s => by
      obtain ⟨w, hw⟩ := exists_spelled c
      obtain ⟨body, hbody⟩ := exists_body s
      exact ⟨w ++ body, .cons hw hbody⟩

theorem exists_quoted (s : String) (rest : List Char) : ∃ text, Quoted s text rest := by
  obtain ⟨body, hbody⟩ := exists_body s.toList
  exact ⟨_, body, hbody, rfl⟩

theorem exists_listed (rest : List Char) : ∀ l : List String, ∃ text, Listed l text rest
  | [] => ⟨']' :: rest, .close (.nil _)⟩
  | s :: l => by
      obtain ⟨text', htext'⟩ := exists_listed rest l
      obtain ⟨item, hitem⟩ := exists_quoted s (',' :: text')
      exact ⟨item, .more (.nil _) hitem (.nil _) htext'⟩

end AdvisoryGate.Toml
