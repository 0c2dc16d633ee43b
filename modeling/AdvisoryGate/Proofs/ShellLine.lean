import AdvisoryGate.Invocation

/-!
# A shell reads a command line back

The other side of `Shell.line`: how a POSIX shell takes a line apart. The
reading has two halves. `marks?` finds out what each character is once the
quotes are known, and fails on a quote or a backslash that is never
completed; `gather` removes the quotes and parts the words at the blanks.

Nothing else that a shell gives a meaning to (operators, expansions,
patterns, comments, line ends) is modelled: such a character counts as
`bare`, and a written line is shown to hold none of them
(`harmless_lineMarks`).

The marks of a written word are known in advance (`wordMarks`), whatever
follows the word (`marksFrom_writeWord`), so both halves of the reading are
settled word by word. `display_reads_back` is the statement about
invocations.
-/

namespace AdvisoryGate.Shell

/-! ## A shell's view of a line -/

/-- What a character of a line is to a shell. -/
inductive Mark
  /-- A blank that stands unquoted. -/
  | gap (c : Char)
  /-- Any other character that stands unquoted. -/
  | bare (c : Char)
  /-- A character and the unquoted backslash before it. -/
  | escaped (c : Char)
  /-- The beginning or the end of a quotation. -/
  | quote
  /-- A character inside a quotation. -/
  | quoted (c : Char)
  deriving DecidableEq, Repr

/-- Where in a line a shell is. -/
inductive Mode
  | outside
  /-- Behind an unquoted backslash. -/
  | escape
  /-- Between single quotes. -/
  | quotation
  deriving DecidableEq, Repr

/-- An unquoted blank parts words. -/
def isGap (c : Char) : Bool := c = ' ' || c = '\t'

/-- The marks of the rest of a line. -/
def marksFrom : Mode → List Char → Option (List Mark)
  | .outside, [] => some []
  | .escape, [] | .quotation, [] => none
  | .outside, c :: cs =>
    if c = '\'' then (marksFrom .quotation cs).map (.quote :: ·)
    else if c = '\\' then marksFrom .escape cs
    else if isGap c then (marksFrom .outside cs).map (.gap c :: ·)
    else (marksFrom .outside cs).map (.bare c :: ·)
  | .escape, c :: cs => (marksFrom .outside cs).map (.escaped c :: ·)
  | .quotation, c :: cs =>
    if c = '\'' then (marksFrom .outside cs).map (.quote :: ·)
    else (marksFrom .quotation cs).map (.quoted c :: ·)

/-- The marks of a line, if all its quotes are closed. -/
def marks? (line : String) : Option (List Mark) := marksFrom .outside line.toList

/-- What a mark adds to the word it stands in. -/
def Mark.text : Mark → List Char
  | .bare c | .escaped c | .quoted c => [c]
  | .gap _ | .quote => []

def Mark.isGap : Mark → Bool
  | .gap _ => true
  | _ => false

/-- The words that marks make up, behind the beginning of a word if one has
begun. Quotes begin a word even if nothing stands between them. -/
def gather (begun : Option (List Char)) : List Mark → List (List Char)
  | [] => begun.toList
  | m :: ms =>
    if m.isGap then begun.toList ++ gather none ms
    else gather (some (begun.getD [] ++ m.text)) ms

/-- The words of a line. -/
def words (ms : List Mark) : List String := (gather none ms).map String.ofList

/-- Characters that have a meaning of their own to a shell, somewhere. -/
def special : List Char := "|&;<>()$\x60\\\"'*?[]#~!\x7b\x7d^ \t\n\r".toList

/-- Out of quotes, only separating spaces, inert characters and escaped
quotes. -/
def Mark.Harmless : Mark → Prop
  | .gap c => c = ' '
  | .bare c => (c.isAlphanum = true ∨ c ∈ "-_./=:,+@%".toList) ∧ c ∉ special
  | .escaped c => c = '\''
  | .quote | .quoted _ => True

/-! ## The marks of a written word -/

/-- How a shell sees one character between single quotes, as it is written. -/
def quotedMarks (c : Char) : List Mark :=
  if c = '\'' then [.quote, .escaped c, .quote] else [.quoted c]

/-- How a shell sees a word, as it is written. -/
def wordMarks (w : List Char) : List Mark :=
  if !w.isEmpty && w.all isInert then w.map .bare
  else .quote :: w.flatMap quotedMarks ++ [.quote]

theorem isInert_iff {c : Char} :
    isInert c = true ↔ c.isAlphanum = true ∨ c ∈ "-_./=:,+@%".toList := by
  simp only [isInert, Bool.or_eq_true, List.contains_iff_mem]

theorem isInert_of_mem_special : ∀ c ∈ special, isInert c = false := by
  have hall : special.all (!isInert ·) = true := by decide +kernel
  intro c hc
  simpa using List.all_eq_true.mp hall c hc

theorem not_mem_special {c : Char} (h : isInert c = true) : c ∉ special := by
  intro hc
  rw [isInert_of_mem_special c hc] at h
  cases h

/-- An inert character is neither a quote nor a backslash nor a blank. -/
theorem marksFrom_inert {c : Char} (h : isInert c = true) (cs : List Char) :
    marksFrom .outside (c :: cs) = (marksFrom .outside cs).map (.bare c :: ·) := by
  have hq : c ≠ '\'' := by rintro rfl; exact not_mem_special h (by decide +kernel)
  have hb : c ≠ '\\' := by rintro rfl; exact not_mem_special h (by decide +kernel)
  have hg : isGap c = false := by
    rw [Bool.eq_false_iff]
    intro hc
    simp only [isGap, Bool.or_eq_true, decide_eq_true_eq] at hc
    rcases hc with rfl | rfl
    · exact not_mem_special h (by decide +kernel)
    · exact not_mem_special h (by decide +kernel)
  rw [marksFrom, if_neg hq, if_neg hb, hg]
  rfl

theorem marksFrom_inertWord (rest : List Char) : ∀ {w : List Char}, w.all isInert = true →
    marksFrom .outside (w ++ rest) = (marksFrom .outside rest).map (w.map .bare ++ ·)
  | [], _ => by simp
  | c :: w, h => by
      rw [List.all_cons, Bool.and_eq_true] at h
      rw [List.cons_append, marksFrom_inert h.1, marksFrom_inertWord rest h.2, Option.map_map]
      rfl

/-- Inside a quotation the splice `'\''` leaves it and enters the next one. -/
theorem marksFrom_escapeQuote (c : Char) (cs : List Char) :
    marksFrom .quotation (escapeQuote c ++ cs)
      = (marksFrom .quotation cs).map (quotedMarks c ++ ·) := by
  by_cases hc : c = '\''
  · subst hc
    simp [escapeQuote, quotedMarks, marksFrom, Function.comp_def]
  · simp [escapeQuote, quotedMarks, marksFrom, hc]

theorem marksFrom_quotation (rest : List Char) : ∀ w : List Char,
    marksFrom .quotation (w.flatMap escapeQuote ++ '\'' :: rest)
      = (marksFrom .outside rest).map (w.flatMap quotedMarks ++ .quote :: ·)
  | [] => by simp [marksFrom]
  | c :: w => by
      rw [List.flatMap_cons, List.append_assoc, marksFrom_escapeQuote,
        marksFrom_quotation rest w, Option.map_map]
      simp [Function.comp_def]

/-- A written word is seen the same way whatever follows it, and leaves the
shell outside of quotes. -/
theorem marksFrom_writeWord (w rest : List Char) :
    marksFrom .outside (writeWord w ++ rest)
      = (marksFrom .outside rest).map (wordMarks w ++ ·) := by
  by_cases h : (!w.isEmpty && w.all isInert) = true
  · rw [writeWord, if_pos h, wordMarks, if_pos h]
    rw [Bool.and_eq_true] at h
    exact marksFrom_inertWord rest h.2
  · rw [writeWord, if_neg h, wordMarks, if_neg h, List.cons_append, List.cons_append,
      List.append_assoc, List.singleton_append]
    rw [marksFrom, if_pos rfl, marksFrom_quotation, Option.map_map]
    simp [Function.comp_def]

/-! ## What the marks of a word come to -/

theorem mem_wordMarks {w : List Char} {m : Mark} (hm : m ∈ wordMarks w) :
    (∃ c, isInert c = true ∧ m = .bare c) ∨ m = .quote ∨ m = .escaped '\''
      ∨ ∃ c, m = .quoted c := by
  rw [wordMarks] at hm
  split at hm
  · rename_i hin
    obtain ⟨c, hc, rfl⟩ := List.mem_map.mp hm
    rw [Bool.and_eq_true] at hin
    exact Or.inl ⟨c, List.all_eq_true.mp hin.2 c hc, rfl⟩
  · simp only [List.cons_append, List.mem_cons, List.mem_append, List.mem_flatMap,
      List.not_mem_nil, or_false] at hm
    rcases hm with rfl | ⟨c, -, hc⟩ | rfl
    · exact Or.inr (Or.inl rfl)
    · rw [quotedMarks] at hc
      split at hc
      · rename_i hq
        subst hq
        simp only [List.mem_cons, List.not_mem_nil, or_false] at hc
        rcases hc with rfl | rfl | rfl
        · exact Or.inr (Or.inl rfl)
        · exact Or.inr (Or.inr (Or.inl rfl))
        · exact Or.inr (Or.inl rfl)
      · exact Or.inr (Or.inr (Or.inr ⟨c, List.mem_singleton.mp hc⟩))
    · exact Or.inr (Or.inl rfl)

theorem isGap_wordMarks {w : List Char} : ∀ m ∈ wordMarks w, m.isGap = false := by
  intro m hm
  rcases mem_wordMarks hm with ⟨c, -, rfl⟩ | rfl | rfl | ⟨c, rfl⟩ <;> rfl

theorem harmless_wordMarks {w : List Char} : ∀ m ∈ wordMarks w, m.Harmless := by
  intro m hm
  rcases mem_wordMarks hm with ⟨c, hc, rfl⟩ | rfl | rfl | ⟨c, rfl⟩
  · exact ⟨isInert_iff.mp hc, not_mem_special hc⟩
  · trivial
  · rfl
  · trivial

theorem wordMarks_ne_nil (w : List Char) : wordMarks w ≠ [] := by
  rw [wordMarks]
  split
  · rename_i h
    cases w with
    | nil => cases h
    | cons c w => simp
  · simp

/-- Quote removal gives the characters of the word back. -/
theorem flatMap_text_wordMarks (w : List Char) : (wordMarks w).flatMap Mark.text = w := by
  have hquoted : ∀ c, (quotedMarks c).flatMap Mark.text = [c] := by
    intro c
    rw [quotedMarks]
    split <;> rfl
  rw [wordMarks]
  split
  · rw [List.flatMap_map]
    exact List.flatMap_singleton' w
  · simp [Mark.text, List.flatMap_assoc, hquoted]

/-! ## Words put together -/

/-- Marks without a gap go to the word that has begun. -/
theorem gather_append : ∀ {ms : List Mark} (u : List Char) (rest : List Mark),
    (∀ m ∈ ms, m.isGap = false) →
      gather (some u) (ms ++ rest) = gather (some (u ++ ms.flatMap Mark.text)) rest
  | [], u, rest, _ => by simp
  | m :: ms, u, rest, h => by
      have hm := h m (List.mem_cons_self ..)
      have hms := fun n hn => h n (List.mem_cons_of_mem _ hn)
      rw [List.cons_append, gather, hm, List.flatMap_cons, ← List.append_assoc]
      exact gather_append _ rest hms

/-- The marks of a word begin it, also where it is empty. -/
theorem gather_wordMarks (w : List Char) (rest : List Mark) :
    gather none (wordMarks w ++ rest) = gather (some w) rest := by
  have hgap := isGap_wordMarks (w := w)
  have htext := flatMap_text_wordMarks w
  cases hms : wordMarks w with
  | nil => exact absurd hms (wordMarks_ne_nil w)
  | cons m ms =>
      rw [hms] at hgap htext
      have hm := hgap m (List.mem_cons_self ..)
      rw [List.cons_append, gather, hm]
      rw [List.flatMap_cons] at htext
      simp only [Bool.false_eq_true, if_false, Option.getD_none, List.nil_append]
      rw [gather_append _ rest (fun n hn => hgap n (List.mem_cons_of_mem _ hn)), htext]

/-- How a shell sees a command line, as it is written. -/
def lineMarks : List (List Char) → List Mark
  | [] => []
  | [w] => wordMarks w
  | w :: v :: ws => wordMarks w ++ .gap ' ' :: lineMarks (v :: ws)

theorem marksFrom_line : ∀ ws : List (List Char),
    marksFrom .outside ([' '].intercalate (ws.map writeWord)) = some (lineMarks ws)
  | [] => rfl
  | [w] => by
      have h := marksFrom_writeWord w []
      rw [List.append_nil] at h
      simpa [lineMarks, marksFrom] using h
  | w :: v :: ws => by
      have ih := marksFrom_line (v :: ws)
      rw [List.map_cons] at ih
      rw [List.map_cons, List.map_cons, List.intercalate_cons_cons, List.append_assoc,
        marksFrom_writeWord, List.singleton_append]
      simp [marksFrom, isGap, ih, lineMarks]

theorem gather_lineMarks : ∀ ws : List (List Char), gather none (lineMarks ws) = ws
  | [] => rfl
  | [w] => by
      have h := gather_wordMarks w []
      rw [List.append_nil] at h
      simpa [lineMarks, gather] using h
  | w :: v :: ws => by
      rw [lineMarks, gather_wordMarks, gather]
      simp [Mark.isGap, gather_lineMarks (v :: ws)]

theorem harmless_lineMarks : ∀ {ws : List (List Char)}, ∀ m ∈ lineMarks ws, m.Harmless
  | [], _, hm => (List.not_mem_nil hm).elim
  | [_], m, hm => harmless_wordMarks m hm
  | w :: v :: ws, m, hm => by
      rw [lineMarks, List.mem_append, List.mem_cons] at hm
      rcases hm with hm | rfl | hm
      · exact harmless_wordMarks m hm
      · rfl
      · exact harmless_lineMarks m hm

/-- A gap between each two words, and none elsewhere. -/
theorem countP_isGap_lineMarks : ∀ ws : List (List Char),
    (lineMarks ws).countP Mark.isGap = ws.length - 1
  | [] => rfl
  | [w] => by
      rw [lineMarks, List.countP_eq_zero.mpr fun m hm => by simp [isGap_wordMarks m hm]]
      rfl
  | w :: v :: ws => by
      have ih := countP_isGap_lineMarks (v :: ws)
      rw [lineMarks, List.countP_append,
        List.countP_eq_zero.mpr fun m hm => by simp [isGap_wordMarks m hm],
        List.countP_cons, ih]
      simp [Mark.isGap]

theorem marks?_line (ws : List String) :
    marks? (line ws) = some (lineMarks (ws.map String.toList)) := by
  have h := marksFrom_line (ws.map String.toList)
  rw [List.map_map] at h
  rw [marks?, line, String.toList_intercalate, List.map_map]
  simpa [Function.comp_def, word] using h

theorem words_lineMarks (ws : List String) : words (lineMarks (ws.map String.toList)) = ws := by
  rw [words, gather_lineMarks, List.map_map]
  simp [Function.comp_def]

end AdvisoryGate.Shell

namespace AdvisoryGate.Invocation

/-- **The shown command line is lossless and inert.** A shell that reads it
finds every quote closed and exactly the program and its arguments, one
space apart; outside of quotations it meets nothing but those spaces, inert
characters and escaped quotes. -/
theorem display_reads_back (inv : Invocation) :
    ∃ ms, Shell.marks? inv.display = some ms
      ∧ Shell.words ms = inv.program :: inv.args
      ∧ (∀ m ∈ ms, m.Harmless)
      ∧ ms.countP Shell.Mark.isGap = inv.args.length := by
  refine ⟨_, Shell.marks?_line _, Shell.words_lineMarks _, Shell.harmless_lineMarks, ?_⟩
  rw [Shell.countP_isGap_lineMarks]
  simp

end AdvisoryGate.Invocation
