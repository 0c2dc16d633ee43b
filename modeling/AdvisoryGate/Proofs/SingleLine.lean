import AdvisoryGate.Gate
import AdvisoryGate.Proofs.Fields
import AdvisoryGate.Proofs.Resolution

/-!
# Line breaks in a shown command

A command is shown as one line of words, each of them quoted if it has to
be. Quoting is for a shell, and a shell keeps line breaks between quotes,
so they are shown as they are: the line breaks of a shown command are those
of its words, in order (`breaks_display`).

Where the words come from a configuration and a command line, this can be
said of what is written there (`SaysNoBreak`). A blank at either end of an
id is cut off, line breaks included; inside an id, in an argument and in
the name of the program they stay. `shown_on_one_line_iff` says when the
dry run and the record of a run are single lines, and
`argument_with_break_is_shown_on_two_lines` is a plan where they are not.
-/

namespace AdvisoryGate

/-! ## Breaks -/

namespace Text

/-- The character ends a line where a text is shown. -/
def isBreak (c : Char) : Bool := c = '\n' || c = '\r'

/-- The line breaks of a text, in order. -/
def breaks (s : String) : List Char := s.toList.filter isBreak

/-- The text has no line break. -/
def Unbroken (s : String) : Prop := ∀ c ∈ s.toList, isBreak c = false

/-- The text is a line with its end. -/
def OneLine (s : String) : Prop := ∃ body, s = body ++ "\n" ∧ Unbroken body

instance (s : String) : Decidable (Unbroken s) := List.decidableBAll _ s.toList

theorem breaks_eq_nil_iff {s : String} : breaks s = [] ↔ Unbroken s := by
  simp only [breaks, List.filter_eq_nil_iff, Bool.not_eq_true, Unbroken]

theorem breaks_append (s t : String) : breaks (s ++ t) = breaks s ++ breaks t := by
  rw [breaks, String.toList_append, List.filter_append]
  rfl

theorem oneLine_iff {body : String} : OneLine (body ++ "\n") ↔ Unbroken body := by
  constructor
  · rintro ⟨body', hbody, hunbroken⟩
    have hlist := congrArg String.toList hbody
    rw [String.toList_append, String.toList_append] at hlist
    rw [String.toList_inj.mp (List.append_cancel_right hlist)]
    exact hunbroken
  · intro h
    exact ⟨body, rfl, h⟩

end Text

open Text (breaks Unbroken OneLine isBreak breaks_append breaks_eq_nil_iff oneLine_iff)

/-! ## Quoting -/

namespace Shell

theorem filter_escapeQuote (c : Char) : (escapeQuote c).filter isBreak = [c].filter isBreak := by
  by_cases hc : c = '\''
  · rw [hc]
    rfl
  · rw [escapeQuote, if_neg hc]

theorem breaks_word (s : String) : breaks (word s) = breaks s := by
  have hquoted : ∀ cs : List Char,
      (cs.flatMap escapeQuote).filter isBreak = cs.filter isBreak := by
    intro cs
    induction cs with
    | nil => rfl
    | cons c cs ih =>
        rw [List.flatMap_cons, List.filter_append, filter_escapeQuote, ih, ← List.filter_append]
        rfl
  rw [breaks, word, String.toList_ofList, writeWord]
  split
  · rfl
  · rw [List.cons_append, List.filter_cons_of_neg (by decide), List.filter_append, hquoted]
    exact List.append_nil _

/-- The spaces between words are no breaks, and quoting neither adds nor
takes one. -/
theorem breaks_line (ws : List String) : breaks (line ws) = ws.flatMap breaks := by
  have hjoined : ∀ ws : List String,
      ([' '].intercalate ((ws.map word).map String.toList)).filter isBreak
        = ws.flatMap breaks := by
    intro ws
    induction ws with
    | nil => rfl
    | cons w ws ih =>
        have hword : (word w).toList.filter isBreak = breaks w := breaks_word w
        cases ws with
        | nil => simp [hword]
        | cons v ws =>
            simp only [List.map_cons] at ih ⊢
            rw [List.intercalate_cons_cons, List.filter_append, List.filter_append, hword, ih]
            simp [isBreak]
  rw [breaks, line, String.toList_intercalate]
  exact hjoined ws

end Shell

/-! ## Invocations -/

namespace Invocation

/-- A shown command has the line breaks of its words. -/
theorem breaks_display (inv : Invocation) :
    breaks inv.display = (inv.program :: inv.args).flatMap breaks :=
  Shell.breaks_line _

/-- The flag in front of each id has no break of its own. -/
theorem breaks_arguments (l : IgnoreList) :
    l.arguments.flatMap breaks = l.ids.flatMap fun id => breaks id.text := by
  have hflag : breaks IgnoreList.flag = [] := by decide
  rw [IgnoreList.arguments, List.flatMap_assoc]
  simp [hflag]

theorem unbroken_display_iff {inv : Invocation} :
    Unbroken inv.display ↔ Unbroken inv.program ∧ (∀ s ∈ inv.leading, Unbroken s)
      ∧ ∀ id ∈ inv.ignore.ids, Unbroken id.text := by
  rw [← breaks_eq_nil_iff, breaks_display, args, List.flatMap_cons, List.flatMap_append,
    breaks_arguments]
  simp only [List.append_eq_nil_iff, List.flatMap_eq_nil_iff, breaks_eq_nil_iff]

end Invocation

/-! ## Plans -/

namespace Plan

/-- Nothing that is written in the configuration or on the command line, and
goes into the command, has a line break. -/
structure SaysNoBreak (cfg : Config) (o : Overrides) : Prop where
  command : ∀ s ∈ cfg.command, Unbroken s
  args : ∀ l ∈ cfg.args, ∀ s ∈ l, Unbroken s
  /-- Of an id it is what the cut leaves that counts. -/
  ignore : ∀ raw ∈ cfg.ignore ++ o.ignore, Unbroken (Text.trim raw)

theorem unbroken_preset {name : String} {preset : IgnoreList}
    (h : Preset.find? name = some preset) : ∀ id ∈ preset.ids, Unbroken id.text := by
  rw [Preset.find?] at h
  split at h
  · cases h
    decide +kernel
  · split at h
    · cases h
      exact fun id hid => absurd hid List.not_mem_nil
    · cases h

theorem unbroken_display_iff_saysNoBreak {cfg : Config} {o : Overrides} {p : Plan}
    (h : resolve cfg o = .ok p) : Unbroken p.invocation.display ↔ SaysNoBreak cfg o := by
  obtain ⟨-, preset, hpreset, hinv⟩ := resolve_ok h
  have hids : ∀ id, id ∈ p.invocation.ignore.ids ↔ id ∈ supplied preset cfg o := by
    intro id
    rw [hinv, ids_merge_supplied hpreset]
    exact List.mem_eraseDups
  have hprogram : Unbroken p.invocation.program ↔ ∀ s ∈ cfg.command, Unbroken s := by
    have hdefault : Unbroken Invocation.defaultProgram := by decide
    rw [hinv]
    cases cfg.command <;> simp [hdefault]
  have hleading : (∀ s ∈ p.invocation.leading, Unbroken s)
      ↔ ∀ l ∈ cfg.args, ∀ s ∈ l, Unbroken s := by
    have hdefault : ∀ s ∈ Invocation.defaultLeading, Unbroken s := by decide
    rw [hinv]
    cases cfg.args with
    | none => simpa using hdefault
    | some l => simp
  have hignore : (∀ id ∈ p.invocation.ignore.ids, Unbroken id.text)
      ↔ ∀ raw ∈ cfg.ignore ++ o.ignore, Unbroken (Text.trim raw) := by
    simp only [hids, supplied, List.append_assoc, ← List.map_append]
    constructor
    · intro hall raw hraw
      exact hall (.cut raw) (List.mem_append_right _ (List.mem_map_of_mem hraw))
    · intro hall id hid
      rcases List.mem_append.mp hid with hid | hid
      · exact unbroken_preset hpreset id hid
      · obtain ⟨raw, hraw, rfl⟩ := List.mem_map.mp hid
        exact hall raw hraw
  rw [Invocation.unbroken_display_iff, hprogram, hleading, hignore]
  constructor
  · rintro ⟨hcommand, hargs, hids⟩
    exact ⟨hcommand, hargs, hids⟩
  · rintro ⟨hcommand, hargs, hids⟩
    exact ⟨hcommand, hargs, hids⟩

end Plan

/-! ## What is seen -/

namespace Gate

/-- The record of a run that shows its command. -/
def runRecord (inv : Invocation) : Log.Record := .info "running auditor" [("command", inv.display)]

theorem stdout_preview (inv : Invocation) : (preview inv).stdout = inv.display ++ "\n" := by
  simp [preview, Report.stdout, Event.out]

theorem line_runRecord (inv : Invocation) :
    (runRecord inv).line = " INFO running auditor command=" ++ inv.display ++ "\n" := by
  rw [← String.toList_inj]
  simp [runRecord, Log.Record.info, Log.Record.line, Log.Level.label, String.toList_append]

theorem oneLine_preview_iff {inv : Invocation} :
    OneLine (preview inv).stdout ↔ Unbroken inv.display := by
  rw [stdout_preview, oneLine_iff]

theorem oneLine_runRecord_iff {inv : Invocation} :
    OneLine (runRecord inv).line ↔ Unbroken inv.display := by
  have hlabel : breaks " INFO running auditor command=" = [] := by decide
  rw [line_runRecord, oneLine_iff, ← breaks_eq_nil_iff, ← breaks_eq_nil_iff, breaks_append, hlabel,
    List.nil_append]

/-- **When a command is shown on one line.** The line breaks of what a plan
shows are those of its words. So the dry run prints a single line, and the
record of the run is one, exactly if no break stands in the configured
program or arguments, or inside an id. -/
theorem shown_on_one_line_iff {text : String} {o : Overrides} {p : Plan}
    (h : Plan.ofText text o = .ok p) :
    ∃ cfg, Plan.configOf text = .ok cfg
      ∧ breaks p.invocation.display = (p.invocation.program :: p.invocation.args).flatMap breaks
      ∧ (Unbroken p.invocation.display ↔ Plan.SaysNoBreak cfg o)
      ∧ (OneLine (preview p.invocation).stdout ↔ Plan.SaysNoBreak cfg o)
      ∧ ∀ run : Runner, (audit run p.invocation).events.head? = some (.log (runRecord p.invocation))
        ∧ (OneLine (runRecord p.invocation).line ↔ Plan.SaysNoBreak cfg o) := by
  obtain ⟨cfg, hcfg, hresolve⟩ := bind_ok_iff.mp h
  rw [mapError_ok_iff] at hcfg hresolve
  have hiff := Plan.unbroken_display_iff_saysNoBreak hresolve
  exact ⟨cfg, hcfg, p.invocation.breaks_display, hiff, oneLine_preview_iff.trans hiff,
    fun _ => ⟨rfl, oneLine_runRecord_iff.trans hiff⟩⟩

/-- A program with a space in its name, and an id with breaks around it. -/
theorem shown_on_one_line_with_padded_id :
    let text := "command = \"a b\"\nignore = [\"\\nX\\r\\n\"]\nprofile = \"none\"\n"
    let inv : Invocation := ⟨"a b", ["audit"], ⟨[⟨"X"⟩]⟩⟩
    Plan.ofText text {} = .ok ⟨"none", inv⟩ ∧ OneLine (preview inv).stdout := by
  intro text inv
  have hparse : Config.parse text
      = .ok { profile := some "none", command := some "a b", ignore := ["\nX\r\n"] } :=
    Config.parse_of_ascending? (r := .ok _) (by decide +kernel)
  have h : Plan.ofText text {} = .ok ⟨"none", inv⟩ := by
    rw [Plan.ofText_of_parse (by decide +kernel) hparse]
    decide +kernel
  have hdisplay : Unbroken inv.display := by decide +kernel
  obtain ⟨cfg, -, -, hunbroken, honeLine, -⟩ := shown_on_one_line_iff h
  exact ⟨h, honeLine.mpr (hunbroken.mp hdisplay)⟩

/-- A line break in an argument is shown as it is, and the command on two
lines. -/
theorem argument_with_break_is_shown_on_two_lines :
    let text := "args = [\"a\\nb\"]"
    let inv : Invocation := ⟨"cargo", ["a\nb"], Preset.accepted⟩
    Plan.ofText text {} = .ok ⟨"default", inv⟩ ∧ '\n' ∈ inv.display.toList
      ∧ ¬ OneLine (preview inv).stdout ∧ ¬ OneLine (runRecord inv).line := by
  intro text inv
  have hparse : Config.parse text = .ok { args := some ["a\nb"] } :=
    Config.parse_of_ascending? (r := .ok _) (by decide +kernel)
  have h : Plan.ofText text {} = .ok ⟨"default", inv⟩ := by
    rw [Plan.ofText_of_parse (by decide +kernel) hparse]
    decide +kernel
  have hbroken : ¬ Unbroken inv.display := by decide +kernel
  exact ⟨h, by decide +kernel, fun hone => hbroken (oneLine_preview_iff.mp hone),
    fun hone => hbroken (oneLine_runRecord_iff.mp hone)⟩

end Gate

end AdvisoryGate
