import AdvisoryGate.Proofs.Lemmas
import AdvisoryGate.Toml.Document
import Mathlib.Data.List.Forall2

/-!
# How documents are laid out

The layout of a TOML document as a grammar, apart from how it is read: what
may stand between keys and values (`Gap`), how a line ends (`LineEnd`), and
how a text is made of lines (`Lines`). Each relation holds between a text
and what remains of it, so nothing has to be said about what comes next.

`Lines` leaves open what a line can hold. `parse?_of_lines` reads a whole
document, given how its lines are read, whatever empty lines, comments,
spaces and line breaks are among them; `parse?_of_gap` is the document that
has nothing else.
-/

namespace AdvisoryGate.Toml

/-! ## The grammar -/

def IsSpace (c : Char) : Prop := c = ' ' ∨ c = '\t'

/-- The character can stand in a comment: it is no control but the tab. -/
def IsPrinting (c : Char) : Prop :=
  c = '\t' ∨ (0x20 ≤ c.toNat ∧ c.toNat ≤ 0x7e) ∨ 0x80 ≤ c.toNat

def Spaces (w : List Char) : Prop := ∀ c ∈ w, IsSpace c

/-- Nothing, or a comment. -/
inductive Remark : List Char → Prop
  | none : Remark []
  | comment {t : List Char} : (∀ c ∈ t, IsPrinting c) → Remark ('#' :: t)

/-- What follows a line break, or the end of the text. -/
inductive Cut : List Char → List Char → Prop
  | lf (rest : List Char) : Cut ('\n' :: rest) rest
  | crlf (rest : List Char) : Cut ('\r' :: '\n' :: rest) rest
  | done : Cut [] []

/-- What follows the end of a line: spaces, perhaps a comment, and a line
break or the end of the text. -/
inductive LineEnd : List Char → List Char → Prop
  | intro {sp t z rest : List Char} :
      Spaces sp → Remark t → Cut z rest → LineEnd (sp ++ (t ++ z)) rest

/-- What follows spaces, line breaks and comments in any number and order.
A comment goes up to a line break or the end of the text. -/
inductive Gap : List Char → List Char → Prop
  | nil (rest : List Char) : Gap rest rest
  | space {c : Char} {text rest : List Char} :
      IsSpace c → Gap text rest → Gap (c :: text) rest
  | lf {text rest : List Char} : Gap text rest → Gap ('\n' :: text) rest
  | crlf {text rest : List Char} : Gap text rest → Gap ('\r' :: '\n' :: text) rest
  | comment {t z text rest : List Char} :
      (∀ c ∈ t, IsPrinting c) → Cut z text → Gap text rest → Gap ('#' :: (t ++ z)) rest

/-- A text in lines, some of them empty. `Holds` says how the things that
the others hold are written, and what follows them. -/
inductive Lines {α : Type} (Holds : α → List Char → List Char → Prop) :
    List α → List Char → Prop
  | nil : Lines Holds [] []
  | empty {as : List α} {text rest : List Char} :
      LineEnd text rest → Lines Holds as rest → Lines Holds as text
  | item {a : α} {as : List α} {sp w text rest : List Char} :
      Spaces sp → Holds a w text → LineEnd text rest → Lines Holds as rest →
        Lines Holds (a :: as) (sp ++ w)

/-- How lines that hold something are read, whatever ends them. -/
structure Readable {α : Type} (Holds : α → List Char → List Char → Prop)
    (Reads : α → Assignment → Prop) : Prop where
  head : ∀ {a w text}, Holds a w text → ∃ c r, w = c :: r ∧ c ≠ '\ufeff'
  length : ∀ {a w text}, Holds a w text → text.length < w.length
  line : ∀ {a sp w text rest}, Spaces sp → Holds a w text → LineEnd text rest →
    ∃ x, line? (sp ++ w) = some (.assignment x, rest) ∧ Reads a x

/-- A text, and the same text with or without a byte order mark before it. -/
inductive Marked : List Char → List Char → Prop
  | bare (text : List Char) : Marked text text
  | marked (text : List Char) : Marked ('\ufeff' :: text) text

/-! ## Characters -/

theorem isSpace_iff {c : Char} : isSpace c = true ↔ IsSpace c := by
  rw [isSpace, Bool.or_eq_true, decide_eq_true_eq, decide_eq_true_eq, IsSpace]

theorem isPlain_iff {c : Char} : isPlain c = true ↔ IsPrinting c := by
  simp only [isPlain, IsPrinting, Bool.or_eq_true, Bool.and_eq_true, decide_eq_true_eq]
  refine or_congr_right ?_
  omega

theorem skipSpaces_run {sp rest : List Char} (hsp : Spaces sp)
    (hrest : ∀ c ∈ rest.head?, isSpace c = false) : skipSpaces (sp ++ rest) = rest :=
  dropWhile_run (fun c hc => isSpace_iff.mpr (hsp c hc)) hrest

theorem dropWhile_isPlain {t rest : List Char} (ht : ∀ c ∈ t, IsPrinting c)
    (hrest : ∀ c ∈ rest.head?, isPlain c = false) : (t ++ rest).dropWhile isPlain = rest :=
  dropWhile_run (fun c hc => isPlain_iff.mpr (ht c hc)) hrest

/-! ## Ends of lines -/

section Ends

variable {text rest z : List Char}

theorem Cut.breakOrEnd? (h : Cut z rest) : Toml.breakOrEnd? z = some rest := by
  cases h <;> rfl

theorem cut_of_breakOrEnd? (h : Toml.breakOrEnd? z = some rest) : Cut z rest := by
  rw [Toml.breakOrEnd?.eq_def] at h
  split at h
  · cases h
    exact .done
  · rw [lineBreak?.eq_def] at h
    split at h
    · cases h
      exact .lf _
    · cases h
      exact .crlf _
    · cases h

theorem Cut.head (h : Cut z rest) : ∀ c ∈ z.head?, isSpace c = false ∧ isPlain c = false := by
  intro c hc
  cases h with
  | lf | crlf =>
      obtain rfl := Option.mem_some.mp hc
      exact ⟨rfl, rfl⟩
  | done => cases hc

theorem Cut.length (h : Cut z rest) : z = [] ∨ rest.length < z.length := by
  cases h with
  | lf => exact Or.inr (Nat.lt_succ_self _)
  | crlf => exact Or.inr (Nat.lt_of_succ_lt (Nat.lt_succ_self _))
  | done => exact Or.inl rfl

theorem Cut.rest_of_nil (h : Cut [] rest) : rest = [] := by
  cases h
  rfl

/-- What ends a line, without the spaces at its beginning. -/
theorem LineEnd.exists_trimmed (h : LineEnd text rest) :
    ∃ t z, Remark t ∧ Cut z rest ∧ skipSpaces text = t ++ z := by
  obtain ⟨hsp, ht, hz⟩ := h
  rename_i sp t z
  refine ⟨t, z, ht, hz, skipSpaces_run hsp ?_⟩
  cases ht with
  | none => exact fun c hc => (hz.head c hc).1
  | comment ht =>
      intro c hc
      obtain rfl := Option.mem_some.mp hc
      rfl

theorem spaces_nil : Spaces [] := fun _ hc => absurd hc List.not_mem_nil

theorem LineEnd.lineEnd? (h : LineEnd text rest) : Toml.lineEnd? text = some rest := by
  obtain ⟨t, z, ht, hz, hskip⟩ := h.exists_trimmed
  rw [Toml.lineEnd?, hskip]
  cases ht with
  | none =>
      rw [List.nil_append]
      cases hz <;> rfl
  | comment ht =>
      show Toml.breakOrEnd? ((_ ++ z).dropWhile isPlain) = some rest
      rw [dropWhile_isPlain ht fun c hc => (hz.head c hc).2]
      exact hz.breakOrEnd?

/-- Every line takes a character, except one at the end of the text. -/
theorem LineEnd.length (h : LineEnd text rest) :
    text = [] ∧ rest = [] ∨ rest.length < text.length := by
  obtain ⟨hsp, ht, hz⟩ := h
  rename_i sp t z
  simp only [List.length_append, List.append_eq_nil_iff]
  rcases hz.length with rfl | hlt
  · obtain rfl := hz.rest_of_nil
    rcases Nat.eq_zero_or_pos (sp.length + t.length) with hzero | hpos
    · have hsp' : sp = [] := List.length_eq_zero_iff.mp (by omega)
      have ht' : t = [] := List.length_eq_zero_iff.mp (by omega)
      exact Or.inl ⟨⟨hsp', ht', rfl⟩, rfl⟩
    · exact Or.inr (by simp only [List.length_nil]; omega)
  · exact Or.inr (by omega)

theorem LineEnd.length_le (h : LineEnd text rest) : rest.length ≤ text.length := by
  rcases h.length with ⟨rfl, rfl⟩ | hlt
  · exact Nat.le_refl _
  · exact Nat.le_of_lt hlt

theorem LineEnd.line? (h : LineEnd text rest) : Toml.line? text = some (.empty, rest) := by
  obtain ⟨t, z, ht, hz, hskip⟩ := h.exists_trimmed
  have hcontent : lineContent? (skipSpaces text) = some (.empty, skipSpaces text) := by
    rw [hskip]
    cases ht with
    | none => cases hz <;> rfl
    | comment ht => rfl
  have hend : Toml.lineEnd? (skipSpaces text) = some rest := by
    rw [hskip]
    exact (LineEnd.intro spaces_nil ht hz).lineEnd?
  rw [Toml.line?, hcontent]
  show (Toml.lineEnd? (skipSpaces text)).bind _ = _
  rw [hend]
  rfl

theorem Spaces.cons {c : Char} (hc : IsSpace c) {sp : List Char} (hsp : Spaces sp) :
    Spaces (c :: sp) := by
  intro d hd
  rcases List.mem_cons.mp hd with rfl | hd
  · exact hc
  · exact hsp d hd

theorem LineEnd.cons_space {c : Char} (hc : IsSpace c) (h : LineEnd text rest) :
    LineEnd (c :: text) rest := by
  obtain ⟨hsp, ht, hz⟩ := h
  exact .intro (hsp.cons hc) ht hz

end Ends

/-! ## Gaps -/

/-- The character can begin a gap, or stand in it. -/
def IsGapChar (c : Char) : Prop := c = ' ' ∨ c = '\t' ∨ c = '\n' ∨ c = '\r' ∨ c = '#'

theorem skipGap_stop {c : Char} (hc : ¬ IsGapChar c) (rest : List Char) :
    skipGap false (c :: rest) = some (c :: rest) := by
  simp only [IsGapChar, not_or] at hc
  obtain ⟨hspace, htab, hlf, hcr, hhash⟩ := hc
  have hnospace : isSpace c = false := by simp [isSpace, hspace, htab]
  rw [skipGap, if_neg Bool.false_ne_true, hnospace, if_neg Bool.false_ne_true, if_neg hhash]
  · exact hlf
  · exact fun _ h => absurd h hcr

theorem skipGap_space {c : Char} (hc : IsSpace c) (text : List Char) :
    skipGap false (c :: text) = skipGap false text := by
  rcases hc with rfl | rfl <;> rfl

/-- Inside a comment everything is skipped up to the line break. -/
theorem skipGap_comment {z text : List Char} (hz : Cut z text) : ∀ {t : List Char},
    (∀ c ∈ t, IsPrinting c) → skipGap true (t ++ z) = skipGap false text
  | [], _ => by cases hz <;> rfl
  | c :: t, ht => by
      have hc := isPlain_iff.mpr (ht c (List.mem_cons_self ..))
      rw [List.cons_append, skipGap, if_pos rfl, if_pos hc]
      · exact skipGap_comment hz fun d hd => ht d (List.mem_cons_of_mem _ hd)
      · rintro rfl
        exact absurd hc (by decide)
      · rintro _ rfl
        exact absurd hc (by decide)

theorem Gap.skipGap {text rest : List Char} (h : Gap text rest)
    (hrest : ∀ c ∈ rest.head?, ¬ IsGapChar c) : skipGap false text = some rest := by
  induction h with
  | nil rest =>
      cases rest with
      | nil => rfl
      | cons c rest => exact skipGap_stop (hrest c rfl) rest
  | space hc _ ih => rw [skipGap_space hc, ih hrest]
  | lf _ ih => exact ih hrest
  | crlf _ ih => exact ih hrest
  | comment ht hz _ ih =>
      rw [← ih hrest]
      exact skipGap_comment hz ht

theorem Gap.trans {a b c : List Char} (h : Gap a b) (h' : Gap b c) : Gap a c := by
  induction h with
  | nil => exact h'
  | space hc _ ih => exact .space hc (ih h')
  | lf _ ih => exact .lf (ih h')
  | crlf _ ih => exact .crlf (ih h')
  | comment ht hz _ ih => exact .comment ht hz (ih h')

theorem Cut.isSuffix {z rest : List Char} (h : Cut z rest) : rest <:+ z := by
  cases h with
  | lf => exact List.suffix_cons _ _
  | crlf => exact (List.suffix_cons _ _).trans (List.suffix_cons _ _)
  | done => exact List.suffix_refl _

theorem Gap.isSuffix {text rest : List Char} (h : Gap text rest) : rest <:+ text := by
  induction h with
  | nil => exact List.suffix_refl _
  | space _ _ ih => exact ih.trans (List.suffix_cons _ _)
  | lf _ ih => exact ih.trans (List.suffix_cons _ _)
  | crlf _ ih => exact ih.trans ((List.suffix_cons _ _).trans (List.suffix_cons _ _))
  | comment _ hz _ ih =>
      exact ih.trans (hz.isSuffix.trans ((List.suffix_append _ _).trans (List.suffix_cons _ _)))

theorem Cut.gap {z rest : List Char} (h : Cut z rest) : Gap z rest := by
  cases h with
  | lf => exact .lf (.nil _)
  | crlf => exact .crlf (.nil _)
  | done => exact .nil _

theorem gap_skipSpaces : ∀ cs : List Char, Gap cs (skipSpaces cs)
  | [] => .nil []
  | c :: cs => by
      rw [skipSpaces, List.dropWhile_cons]
      split
      · rename_i hc
        exact .space (isSpace_iff.mp hc) (gap_skipSpaces cs)
      · exact .nil _

/-! ## Lines -/

section Lines

variable {α : Type} {Holds : α → List Char → List Char → Prop} {as : List α}
  {text rest : List Char}

theorem Lines.cons_space {c : Char} (hc : IsSpace c) (h : Lines Holds as text) :
    Lines Holds as (c :: text) := by
  cases h with
  | nil => exact .empty (LineEnd.intro (spaces_nil.cons hc) .none .done) .nil
  | empty hend hrest => exact .empty (hend.cons_space hc) hrest
  | item hsp ha hend hrest => exact .item (hsp.cons hc) ha hend hrest

/-- A gap up to the end of the text is a text of empty lines. -/
theorem Gap.lines (h : Gap text rest) : rest = [] → Lines Holds [] text := by
  induction h with
  | nil rest =>
      rintro rfl
      exact .nil
  | space hc _ ih => exact fun hrest => (ih hrest).cons_space hc
  | lf _ ih => exact fun hrest => .empty (LineEnd.intro spaces_nil .none (.lf _)) (ih hrest)
  | crlf _ ih => exact fun hrest => .empty (LineEnd.intro spaces_nil .none (.crlf _)) (ih hrest)
  | comment ht hz _ ih =>
      exact fun hrest => .empty (LineEnd.intro spaces_nil (.comment ht) hz) (ih hrest)

theorem lines?_cons {fuel : Nat} {line : Line} {ls : List Line} (hne : text ≠ [])
    (hline : line? text = some (line, rest)) (hls : lines? fuel rest = some ls) :
    lines? (fuel + 1) text = some (line :: ls) := by
  rw [lines?]
  · rw [hline]
    show (lines? fuel rest).bind _ = _
    rw [hls]
    rfl
  · exact hne

theorem exists_lines : ∀ {as : List α}, (∀ a ∈ as, ∀ rest, ∃ w, Holds a w rest) →
    ∃ text, Lines Holds as text
  | [], _ => ⟨[], .nil⟩
  | a :: as, h => by
      obtain ⟨text, htext⟩ := exists_lines fun b hb => h b (List.mem_cons_of_mem _ hb)
      obtain ⟨w, hw⟩ := h a (List.mem_cons_self ..) ('\n' :: text)
      exact ⟨_, .item spaces_nil hw (LineEnd.intro spaces_nil .none (.lf _)) htext⟩

variable {Reads : α → Assignment → Prop}

/-- Reading the lines of a text: what they hold comes out in order, and
nothing else does. -/
theorem lines?_of_lines (hr : Readable Holds Reads) (h : Lines Holds as text) :
    ∀ fuel, text.length ≤ fuel → ∃ ls xs, lines? fuel text = some ls
      ∧ sections ls = (xs, []) ∧ List.Forall₂ Reads as xs := by
  induction h with
  | nil =>
      intro fuel _
      refine ⟨[], [], ?_, rfl, .nil⟩
      cases fuel <;> rfl
  | empty hend _ ih =>
      intro fuel hfuel
      -- An empty line takes a character and so some fuel, but for one at the end of the text.
      rcases hend.length with ⟨rfl, rfl⟩ | hlt
      · exact ih fuel hfuel
      · obtain ⟨n, rfl⟩ : ∃ n, fuel = n + 1 := ⟨fuel - 1, by omega⟩
        obtain ⟨ls, xs, hls, hsections, hxs⟩ := ih n (by omega)
        refine ⟨.empty :: ls, xs, lines?_cons ?_ hend.line? hls, ?_, hxs⟩
        · rintro rfl
          exact absurd hlt (Nat.not_lt_zero _)
        · rw [sections, hsections]
  | item hsp ha hend _ ih =>
      intro fuel hfuel
      have hlt := hr.length ha
      have hle := hend.length_le
      rw [List.length_append] at hfuel
      obtain ⟨n, rfl⟩ : ∃ n, fuel = n + 1 := ⟨fuel - 1, by omega⟩
      obtain ⟨ls, xs, hls, hsections, hxs⟩ := ih n (by omega)
      obtain ⟨x, hx, hreads⟩ := hr.line hsp ha hend
      refine ⟨.assignment x :: ls, x :: xs, lines?_cons ?_ hx hls, ?_, .cons hreads hxs⟩
      · intro hnil
        obtain ⟨-, rfl⟩ := List.append_eq_nil_iff.mp hnil
        exact absurd hlt (Nat.not_lt_zero _)
      · rw [sections, hsections]

/-- No line begins with a byte order mark. -/
theorem Lines.head (hr : Readable Holds Reads) (h : Lines Holds as text) :
    text.head? ≠ some '\ufeff' := by
  have hspace : ¬ IsSpace '\ufeff' := by
    rintro (h | h) <;> exact absurd h (by decide)
  induction h with
  | nil => exact fun h => nomatch h
  | empty hend _ ih =>
      obtain ⟨hsp, ht, hz⟩ := hend
      rename_i sp t z
      cases sp with
      | cons c sp =>
          intro h
          cases h
          exact hspace (hsp _ (List.mem_cons_self ..))
      | nil =>
          cases ht with
          | comment => exact fun h => absurd h (by simp)
          | none =>
              cases hz with
              | done => exact ih
              | lf | crlf => exact fun h => absurd h (by simp)
  | @item _ _ sp _ _ _ hsp ha _ _ _ =>
      cases sp with
      | cons c sp =>
          intro h
          cases h
          exact hspace (hsp _ (List.mem_cons_self ..))
      | nil =>
          obtain ⟨c, r, rfl, hc⟩ := hr.head ha
          intro h
          cases h
          exact hc rfl

theorem skipMark_of_marked {marked : List Char} (h : Marked marked text)
    (hhead : text.head? ≠ some '\ufeff') : skipMark marked = text := by
  cases h with
  | marked => rfl
  | bare =>
      rw [skipMark]
      rintro r rfl
      exact hhead rfl

/-- A document is read line by line, and its assignments are carried out. -/
theorem parse?_of_lines {marked : List Char} (hr : Readable Holds Reads)
    (hmarked : Marked marked text) (h : Lines Holds as text) :
    ∃ xs, parse? marked = Entries.assignAll? [] xs ∧ List.Forall₂ Reads as xs := by
  obtain ⟨ls, xs, hls, hsections, hxs⟩ := lines?_of_lines hr h text.length (Nat.le_refl _)
  refine ⟨xs, ?_, hxs⟩
  have htable : tableOf? ls = Entries.assignAll? [] xs := by
    rw [tableOf?, hsections]
    simp only [List.foldlM_nil, bind_pure]
  rw [parse?, skipMark_of_marked hmarked (h.head hr)]
  show (lines? text.length text).bind tableOf? = _
  rw [hls]
  exact htable

end Lines

/-- Nothing at all is written for nothing at all. -/
theorem readable_empty :
    Readable (fun (a : Empty) _ _ => a.elim) (fun (a : Empty) _ => a.elim) where
  head {a} := a.elim
  length {a} := a.elim
  line {a} := a.elim

/-- **A document that says nothing** is the empty table, with or without a
byte order mark. -/
theorem parse?_of_gap {marked text : List Char} (hmarked : Marked marked text)
    (h : Gap text []) : parse? marked = some [] := by
  obtain ⟨xs, hxs, hnone⟩ := parse?_of_lines readable_empty hmarked (h.lines rfl)
  cases hnone
  exact hxs

end AdvisoryGate.Toml
