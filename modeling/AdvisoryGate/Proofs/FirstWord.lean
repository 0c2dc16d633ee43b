import AdvisoryGate.Proofs.Resolution
import AdvisoryGate.Proofs.ShellLine

/-!
# The first word of a shown command

A shell looks at the first word of a line in another way than at the rest.
A word of its own language is no command, nor is what looks like giving a
variable its value; but only if it stands without quotes. `role` is what a
shell takes the first word for.

Words are quoted by their characters, wherever they stand, and all the
characters of these words are inert. So a program with such a name is shown
as it is, and the shown line does not run it. `Misread` says which programs
these are, and `first_word_is_the_program_iff` that there are no others.
-/

namespace AdvisoryGate.Shell

/-! ## A shell's view of a first word -/

/-- The words of a shell's own language that can begin a line. -/
def reservedWords : List String :=
  ["if", "then", "else", "elif", "fi", "do", "done", "case", "esac", "while", "until", "for"]

def isNameStart (c : Char) : Bool := c.isAlpha || c = '_'

def isNamePart (c : Char) : Bool := c.isAlphanum || c = '_'

/-- A variable can have the name. -/
def isName : List Char → Bool
  | [] => false
  | c :: cs => isNameStart c && cs.all isNamePart

/-- What a shell takes the first word of a line for. -/
inductive Role
  | reserved (word : String)
  | assignment (name value : String)
  | command (name : String)
  deriving DecidableEq, Repr

/-- The character stands unquoted. -/
def Mark.isBare : Mark → Bool
  | .bare _ => true
  | _ => false

/-- The text that marks come to. -/
def textOf (ms : List Mark) : String := .ofList (ms.flatMap Mark.text)

/-- The marks of the first word of a line. -/
def firstWord (ms : List Mark) : List Mark := (ms.dropWhile Mark.isGap).takeWhile (!·.isGap)

/-- A word as an assignment: behind a name, of which nothing is quoted, comes
an equals sign, and behind this the value. -/
def assignment? (w : List Mark) : Option (String × String) :=
  let name := w.takeWhile (· ≠ .bare '=')
  match w.dropWhile (· ≠ .bare '=') with
  | [] => none
  | _ :: value =>
    if name.all Mark.isBare && isName (name.flatMap Mark.text) then
      some (textOf name, textOf value)
    else none

/-- What a shell takes a word for that begins a line. -/
def role (w : List Mark) : Role :=
  if w.all Mark.isBare && reservedWords.contains (textOf w) then .reserved (textOf w)
  else
    match assignment? w with
    | some (name, value) => .assignment name value
    | none => .command (textOf w)

/-! ## Programs that are no commands -/

/-- The program is shown as an assignment. -/
def LooksAssigned (program : String) (name value : List Char) : Prop :=
  program.toList = name ++ '=' :: value ∧ isName name = true ∧ value.all isInert = true

/-- The program is shown, but not as the name of a command. -/
def Misread (program : String) : Prop :=
  program ∈ reservedWords ∨ ∃ name value, LooksAssigned program name value

/-! ## Words as they are written -/

theorem firstWord_append (w : List Char) {rest : List Mark}
    (hrest : ∀ m ∈ rest.head?, m.isGap = true) : firstWord (wordMarks w ++ rest) = wordMarks w := by
  have hgap := isGap_wordMarks (w := w)
  have hkept : ∀ m ∈ wordMarks w, (!m.isGap) = true := fun m hm => by rw [hgap m hm]; rfl
  have hstart : (wordMarks w ++ rest).dropWhile Mark.isGap = wordMarks w ++ rest := by
    cases hms : wordMarks w with
    | nil => exact absurd hms (wordMarks_ne_nil w)
    | cons m ms =>
        have hm := hgap m (hms ▸ List.mem_cons_self ..)
        rw [List.cons_append, List.dropWhile_cons_of_neg (by rw [hm]; exact Bool.false_ne_true)]
  have hend : rest.takeWhile (!·.isGap) = [] := by
    cases rest with
    | nil => rfl
    | cons m rest => rw [List.takeWhile_cons_of_neg (by rw [hrest m rfl]; exact Bool.false_ne_true)]
  rw [firstWord, hstart, List.takeWhile_append_of_pos hkept, hend, List.append_nil]

theorem firstWord_lineMarks (w : List Char) (ws : List (List Char)) :
    firstWord (lineMarks (w :: ws)) = wordMarks w := by
  cases ws with
  | nil =>
      have h := @firstWord_append w [] fun _ hm => nomatch hm
      rwa [List.append_nil] at h
  | cons v ws =>
      refine firstWord_append w fun m hm => ?_
      obtain rfl := Option.mem_some.mp hm
      rfl

theorem textOf_wordMarks (s : String) : textOf (wordMarks s.toList) = s := by
  rw [textOf, flatMap_text_wordMarks, String.ofList_toList]

theorem flatMap_text_bare (cs : List Char) : (cs.map Mark.bare).flatMap Mark.text = cs := by
  rw [List.flatMap_map]
  exact List.flatMap_singleton' cs

theorem wordMarks_of_inert {w : List Char} (hne : w ≠ []) (h : w.all isInert = true) :
    wordMarks w = w.map .bare := by
  rw [wordMarks, h]
  simp [hne]

/-- Either nothing of a written word is quoted, or it begins with a quote. -/
theorem wordMarks_cases (w : List Char) :
    (w ≠ [] ∧ w.all isInert = true ∧ wordMarks w = w.map .bare)
      ∨ (¬ (w ≠ [] ∧ w.all isInert = true) ∧ ∃ ms, wordMarks w = .quote :: ms) := by
  by_cases h : w ≠ [] ∧ w.all isInert = true
  · exact .inl ⟨h.1, h.2, wordMarks_of_inert h.1 h.2⟩
  · refine .inr ⟨h, w.flatMap quotedMarks ++ [.quote], ?_⟩
    rw [wordMarks, if_neg]
    · rfl
    · simpa using h

/-! ## Quoted words -/

/-- A word that begins with a quote is a command, whatever its text is. -/
theorem role_of_quote (ms : List Mark) : role (.quote :: ms) = .command (textOf (.quote :: ms)) := by
  have hnone : assignment? (.quote :: ms) = none := by
    rw [assignment?]
    split
    · rfl
    · rw [List.takeWhile_cons_of_pos (by decide)]
      rfl
  rw [role, hnone]
  rfl

/-! ## Bare words -/

section Bare

variable {cs name value : List Char}

theorem all_isBare (cs : List Char) : (cs.map Mark.bare).all Mark.isBare = true := by
  simp [Mark.isBare]

theorem isInert_of_isNamePart {c : Char} (h : isNamePart c = true) : isInert c = true := by
  rw [isInert_iff]
  simp only [isNamePart, Bool.or_eq_true, decide_eq_true_eq] at h
  rcases h with h | rfl
  · exact .inl h
  · exact .inr (by decide)

theorem isNamePart_of_isName (h : isName name = true) : ∀ c ∈ name, isNamePart c = true := by
  cases name with
  | nil => cases h
  | cons c cs =>
      simp only [isName, Bool.and_eq_true, List.all_eq_true] at h
      refine List.forall_mem_cons.mpr ⟨?_, h.2⟩
      have hstart := h.1
      simp only [isNameStart, isNamePart, Char.isAlphanum, Bool.or_eq_true] at hstart ⊢
      exact hstart.imp_left .inl

theorem ne_equals_of_isName (h : isName name = true) : ∀ c ∈ name, c ≠ '=' := by
  rintro c hc rfl
  exact absurd (isNamePart_of_isName h _ hc) (by decide)

theorem takeWhile_bare (cs : List Char) :
    (cs.map Mark.bare).takeWhile (· ≠ .bare '=') = (cs.takeWhile (· ≠ '=')).map .bare := by
  rw [List.takeWhile_map]
  simp [Function.comp_def]

theorem dropWhile_bare (cs : List Char) :
    (cs.map Mark.bare).dropWhile (· ≠ .bare '=') = (cs.dropWhile (· ≠ '=')).map .bare := by
  rw [List.dropWhile_map]
  simp [Function.comp_def]

/-- A bare word is an assignment exactly if a name stands before its first
equals sign. -/
theorem assignment?_bare_iff {n v : String} :
    assignment? (cs.map .bare) = some (n, v) ↔ ∃ name value, cs = name ++ '=' :: value
      ∧ isName name = true ∧ n = .ofList name ∧ v = .ofList value := by
  simp only [assignment?, takeWhile_bare, dropWhile_bare, all_isBare, flatMap_text_bare,
    textOf, Bool.true_and]
  constructor
  · intro h
    cases hrest : cs.dropWhile (· ≠ '=') with
    | nil =>
        rw [hrest] at h
        cases h
    | cons c value =>
        rw [hrest] at h
        simp only [List.map_cons, flatMap_text_bare, Option.ite_none_right_eq_some,
          Option.some.injEq, Prod.mk.injEq] at h
        obtain ⟨hname, hn, hv⟩ := h
        obtain rfl : c = '=' := by
          have hhead := List.head?_dropWhile_not (· ≠ '=') cs
          rw [hrest] at hhead
          simpa using hhead
        refine ⟨_, value, ?_, hname, hn.symm, hv.symm⟩
        rw [← hrest, List.takeWhile_append_dropWhile]
  · rintro ⟨name, value, rfl, hname, rfl, rfl⟩
    have hkept : ∀ c ∈ name, decide (c ≠ '=') = true := fun c hc =>
      decide_eq_true (ne_equals_of_isName hname c hc)
    rw [List.takeWhile_append_of_pos hkept, List.dropWhile_append_of_pos hkept,
      List.takeWhile_cons_of_neg (by decide), List.dropWhile_cons_of_neg (by decide)]
    simp [hname, flatMap_text_bare]

end Bare

/-! ## Programs -/

theorem reservedWords_inert : ∀ w ∈ reservedWords,
    w.toList ≠ [] ∧ w.toList.all isInert = true ∧ '=' ∉ w.toList := by decide +kernel

theorem LooksAssigned.inert {program : String} {name value : List Char}
    (h : LooksAssigned program name value) :
    program.toList ≠ [] ∧ program.toList.all isInert = true := by
  obtain ⟨hprogram, hname, hvalue⟩ := h
  rw [hprogram]
  refine ⟨by simp, ?_⟩
  rw [List.all_append, List.all_cons, hvalue, Bool.and_true, Bool.and_eq_true]
  exact ⟨List.all_eq_true.mpr fun c hc => isInert_of_isNamePart (isNamePart_of_isName hname c hc),
    by decide⟩

theorem role_of_reserved {s : String} (h : s ∈ reservedWords) :
    role (wordMarks s.toList) = .reserved s := by
  obtain ⟨hne, hinert, -⟩ := reservedWords_inert s h
  have htext := textOf_wordMarks s
  rw [wordMarks_of_inert hne hinert] at htext ⊢
  rw [role, all_isBare, htext, List.contains_iff_mem.mpr h]
  rfl

theorem role_of_looksAssigned {s : String} {name value : List Char}
    (h : LooksAssigned s name value) :
    role (wordMarks s.toList) = .assignment (.ofList name) (.ofList value) := by
  have hnot : reservedWords.contains s = false := by
    rw [Bool.eq_false_iff, ne_eq, List.contains_iff_mem]
    intro hmem
    obtain ⟨-, -, hequals⟩ := reservedWords_inert s hmem
    exact hequals (by rw [h.1]; simp)
  obtain ⟨hne, hinert⟩ := h.inert
  have htext := textOf_wordMarks s
  have hassignment : assignment? (s.toList.map .bare) = some (.ofList name, .ofList value) :=
    assignment?_bare_iff.mpr ⟨name, value, h.1, h.2.1, rfl, rfl⟩
  rw [wordMarks_of_inert hne hinert] at htext ⊢
  rw [role, all_isBare, htext, hnot, hassignment]
  rfl

theorem role_of_not_misread {s : String} (h : ¬ Misread s) :
    role (wordMarks s.toList) = .command s := by
  have htext := textOf_wordMarks s
  rcases wordMarks_cases s.toList with ⟨-, hinert, hmarks⟩ | ⟨-, ms, hmarks⟩
  · have hnot : reservedWords.contains s = false := by
      rw [Bool.eq_false_iff, ne_eq, List.contains_iff_mem]
      exact fun hmem => h (.inl hmem)
    have hnone : assignment? (s.toList.map .bare) = none := by
      refine Option.eq_none_iff_forall_ne_some.mpr ?_
      rintro ⟨n, v⟩ hsome
      obtain ⟨name, value, hs, hname, -, -⟩ := assignment?_bare_iff.mp hsome
      rw [hs, List.all_append, List.all_cons, Bool.and_eq_true, Bool.and_eq_true] at hinert
      exact h (.inr ⟨name, value, hs, hname, hinert.2.2⟩)
    rw [hmarks] at htext ⊢
    rw [role, all_isBare, htext, hnot, hnone]
    rfl
  · rw [hmarks] at htext ⊢
    rw [role_of_quote, htext]

theorem role_wordMarks_iff {s : String} :
    role (wordMarks s.toList) = .command s ↔ ¬ Misread s := by
  constructor
  · rintro hrole (hreserved | ⟨name, value, hassigned⟩)
    · rw [role_of_reserved hreserved] at hrole
      cases hrole
    · rw [role_of_looksAssigned hassigned] at hrole
      cases hrole
  · exact role_of_not_misread

end AdvisoryGate.Shell

namespace AdvisoryGate.Plan

open Shell (marks? words role firstWord reservedWords Misread LooksAssigned)

/-- **When the shown line runs the program.** A shell reads the line of a
plan as the program and its arguments. It takes the first word for the
command, unless the configured program has the name of a reserved word or
begins, up to an equals sign, like a variable's name and holds inert
characters only; it then takes it for what it looks like. -/
theorem first_word_is_the_program_iff {cfg : Config} {o : Overrides} {p : Plan}
    (h : resolve cfg o = .ok p) :
    let program := cfg.command.getD "cargo"
    ∃ ms, marks? p.invocation.display = some ms
      ∧ words ms = program :: p.invocation.args
      ∧ (role (firstWord ms) = .command program ↔ ¬ Misread program)
      ∧ (program ∈ reservedWords → role (firstWord ms) = .reserved program)
      ∧ ∀ name value, LooksAssigned program name value →
        role (firstWord ms) = .assignment (.ofList name) (.ofList value) := by
  intro program
  obtain ⟨-, preset, -, hinv⟩ := resolve_ok h
  have hprogram : p.invocation.program = program := by rw [hinv]; rfl
  have hfirst : firstWord (Shell.lineMarks ((program :: p.invocation.args).map String.toList))
      = Shell.wordMarks program.toList := Shell.firstWord_lineMarks _ _
  refine ⟨_, Shell.marks?_line _, Shell.words_lineMarks _ |>.trans (by rw [hprogram]), ?_⟩
  rw [hprogram, hfirst]
  exact ⟨Shell.role_wordMarks_iff, Shell.role_of_reserved, fun _ _ => Shell.role_of_looksAssigned⟩

/-- The space in the value has the whole word quoted, and so it is a command. -/
theorem first_word_is_the_program_with_space :
    let cfg : Config := { profile := some "none", command := some "A=b c" }
    let inv : Invocation := ⟨"A=b c", ["audit"], ⟨[]⟩⟩
    resolve cfg {} = .ok ⟨"none", inv⟩
      ∧ ∃ ms, marks? inv.display = some ms ∧ words ms = ["A=b c", "audit"]
        ∧ role (firstWord ms) = .command "A=b c" := by
  intro cfg inv
  have h : resolve cfg {} = .ok ⟨"none", inv⟩ := by decide +kernel
  have hnot : ¬ Misread "A=b c" := Shell.role_wordMarks_iff.mp (by decide +kernel)
  obtain ⟨ms, hms, hwords, hrole, -⟩ := first_word_is_the_program_iff h
  exact ⟨h, ms, hms, hwords, hrole.mpr hnot⟩

/-- Two programs whose lines do not run them: one is shown as the beginning
of a conditional, the other as an assignment. -/
theorem reserved_program_is_no_command :
    let plan (program : String) : Plan := ⟨"none", ⟨program, ["audit"], ⟨[]⟩⟩⟩
    resolve { profile := some "none", command := some "if" } {} = .ok (plan "if")
      ∧ (marks? (plan "if").invocation.display).map (fun ms => role (firstWord ms))
        = some (.reserved "if")
      ∧ resolve { profile := some "none", command := some "A=b" } {} = .ok (plan "A=b")
      ∧ (marks? (plan "A=b").invocation.display).map (fun ms => role (firstWord ms))
        = some (.assignment "A" "b") := by
  decide +kernel

end AdvisoryGate.Plan
