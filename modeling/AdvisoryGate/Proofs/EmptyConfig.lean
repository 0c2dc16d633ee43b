import AdvisoryGate.Proofs.BlankText
import AdvisoryGate.Proofs.Course
import AdvisoryGate.Proofs.DiskChanges
import AdvisoryGate.Proofs.Insertion

/-!
# A configuration that says nothing

A configuration file can be missing, blank, or a document without a key;
each is a way of its own through the gate, and all lead to the same
defaults. For a blank text that is so whatever its blanks are, even where
they have no place in a document; for a document without a key it takes the
reader of documents, since a byte order mark or a comment is no blank.

`story_of_default` tells the story of a call once its configuration has
turned out to be the default one: it is the same for all texts but for the
first record, which says where the text came from. The headline
`empty_config_changes_nothing` compares a call with such a file to the call
without it.
-/

namespace AdvisoryGate

/-! ## Command lines that name no configuration -/

namespace CommandLine

/-- No word gives the path of a configuration. -/
def Unconfigured (words : List String) : Prop :=
  "--config" ∉ words ∧ ∀ path, "--config=" ++ path ∉ words

/-- Enough to look at how the words begin. -/
theorem unconfigured_of_forall {words : List String}
    (h : ∀ w ∈ words, ¬ "--config".toList.isPrefixOf w.toList = true) : Unconfigured words := by
  refine ⟨fun hw => h _ hw (by decide), fun path hw => h _ hw ?_⟩
  rw [List.isPrefixOf_iff_prefix, String.toList_append]
  exact (List.prefix_append ['-', '-', 'c', 'o', 'n', 'f', 'i', 'g'] ['=']).trans
    (List.prefix_append _ _)

theorem Unconfigured.mono {words words' : List String} (h : Unconfigured words)
    (hsub : ∀ w ∈ words', w ∈ words) : Unconfigured words' :=
  ⟨fun hw => h.1 (hsub _ hw), fun path hw => h.2 path (hsub _ hw)⟩

/-- The same command line with another configuration, or with none. -/
def withConfigPath (path : Option String) (c : CommandLine) : CommandLine :=
  { c with config := path }

/-- Only the path of a configuration sees whether there is one. -/
theorem commutes_withConfigPath (path : Option String) {s : Setting} (hs : s ≠ .valued .config) :
    Commutes (withConfigPath path) s := by
  cases s with
  | valued v =>
      cases v with
      | config => exact absurd rfl hs
      | profile => exact commutes_profile (fun _ => rfl) fun _ _ => rfl
      | ignore => exact fun _ _ => rfl
  | switch s =>
      cases s with
      | dryRun => exact commutes_dryRun (fun _ => rfl) fun _ => rfl
      | verbose | help | version => exact fun _ _ => rfl

theorem Unconfigured.respects {words : List String} (h : Unconfigured words)
    (path : Option String) : Respects (withConfigPath path) words := by
  intro w hw s hs
  refine commutes_withConfigPath path ?_
  rintro rfl
  rcases hs.of_valued with rfl | ⟨text, rfl⟩
  · exact h.1 hw
  · exact h.2 text hw

theorem Unconfigured.config {words : List String} {c : CommandLine} (h : Unconfigured words)
    (hc : ofArgs? words = .ok c) : c.config = none :=
  congrArg CommandLine.config (ofArgs?_eq_of_fixed rfl (h.respects none) hc).symm

end CommandLine

namespace Gate

open CommandLine (Unconfigured)

theorem Guise.arguments_subset (guise : Guise) (args : List String) :
    ∀ w ∈ guise.arguments args, w ∈ args := by
  intro w hw
  unfold Guise.arguments at hw
  split at hw
  · exact List.mem_cons_of_mem _ hw
  · exact hw

theorem unconfigured_arguments {args : List String} (h : Unconfigured args) (guise : Guise) :
    Unconfigured (guise.arguments args) := h.mono (guise.arguments_subset args)

/-! ## Texts that say nothing -/

/-- The text is blank, or a document without a key. -/
def Keyless (text : String) : Prop :=
  Text.isBlank text = true ∨ ∃ body, Toml.Marked text.toList body ∧ Toml.Gap body []

theorem configOf_of_keyless {text : String} (h : Keyless text) : Plan.configOf text = .ok {} := by
  rw [Plan.configOf]
  split
  · rfl
  · rename_i hvisible
    obtain ⟨body, hmarked, hgap⟩ := h.resolve_left hvisible
    exact Config.parse_of_gap hmarked hgap

/-! ## The file -/

section Files

variable {d : Disk}

/-- The place of the default configuration, seen from where we are. -/
def configPlace (d : Disk) : List String := d.here ++ [defaultConfigPath]

theorem placeOf_default (d : Disk) :
    d.placeOf defaultConfigPath = d.enter d.here defaultConfigPath := by
  have hparts : Path.parts defaultConfigPath = [defaultConfigPath] := by decide +kernel
  have hrelative : Path.isAbsolute defaultConfigPath = false := by decide +kernel
  rw [Disk.placeOf, if_neg (by decide +kernel), if_neg (by decide +kernel), hparts, hrelative,
    if_neg Bool.false_ne_true, List.foldlM_cons]
  exact bind_pure _

theorem eq_configPlace {place : List String} (h : d.placeOf defaultConfigPath = .ok place) :
    place = configPlace d := by
  rw [placeOf_default] at h
  exact Disk.eq_of_enter_name h (by decide) (by decide) (by decide)

theorem holds_default_eq_false (hfree : d.get? (configPlace d) = none) :
    d.holds defaultConfigPath = false := by
  cases hfind : d.find defaultConfigPath with
  | error e => exact Disk.holds_of_find_error hfind
  | ok entry =>
      obtain ⟨place, hplace, hsee⟩ := Disk.find_ok_iff.mp hfind
      rw [eq_configPlace hplace] at hsee
      cases hfree.symm.trans (Disk.see_ok_iff.mp hsee).2

/-- The disk with a file in the place of the configuration, and nothing in
the way of it. -/
def withConfig (d : Disk) (content : ByteArray) (executable : Bool) : Disk :=
  (d.put (configPlace d) (.file content executable)).under { d.obstacles with
    refusal? := fun a p => if p = configPlace d then none else d.obstacles.refusal? a p }

/-- The file has no part in how it is reached. -/
theorem placeOf_withConfig (d : Disk) (content : ByteArray) (executable : Bool) :
    (withConfig d content executable).placeOf defaultConfigPath = d.placeOf defaultConfigPath := by
  have hne : d.here ≠ configPlace d := by simp [configPlace]
  have hget : (withConfig d content executable).get? d.here = d.get? d.here := if_neg hne
  have hrefusal : ∀ a, (withConfig d content executable).obstacles.refusal? a d.here
      = d.obstacles.refusal? a d.here := fun a => if_neg hne
  rw [placeOf_default, placeOf_default]
  show (withConfig d content executable).enter d.here defaultConfigPath = _
  simp only [Disk.enter, Disk.see, hget, hrefusal]

theorem see_withConfig (d : Disk) (content : ByteArray) (executable : Bool) :
    (withConfig d content executable).see (configPlace d) = .ok (.file content executable) :=
  Disk.see_ok_iff.mpr ⟨if_pos rfl, if_pos rfl⟩

/-- The text of the file is supplied as it is, unless the directory that we
are in cannot be searched; then the file cannot be seen. -/
theorem supplies_withConfig (d : Disk) (text : String) (executable : Bool) :
    ∃ t, (t = text ∨ t = "") ∧ Supplies (withConfig d text.toUTF8 executable) none t := by
  have hplaces := placeOf_withConfig d text.toUTF8 executable
  cases hplace : d.placeOf defaultConfigPath with
  | error e =>
      rw [hplace] at hplaces
      have hfind : (withConfig d text.toUTF8 executable).find defaultConfigPath = .error e := by
        rw [Disk.find, hplaces]
        rfl
      exact ⟨"", .inr rfl, .absent rfl (Disk.holds_of_find_error hfind)⟩
  | ok place =>
      rw [hplace, eq_configPlace hplace] at hplaces
      have hsee := see_withConfig d text.toUTF8 executable
      have hbytes : (withConfig d text.toUTF8 executable).readBytes defaultConfigPath
          = .ok text.toUTF8 :=
        Disk.readBytes_ok_iff.mpr ⟨_, _, hplaces, hsee, if_pos rfl⟩
      have hfind := Disk.find_ok_iff.mpr ⟨_, hplaces, hsee⟩
      exact ⟨text, .inl rfl, .read (.implied (Disk.holds_of_find hfind))
        (Disk.readText_ok_iff.mpr ⟨_, hbytes, fromUTF8?_toUTF8 text⟩)⟩

end Files

/-! ## The story -/

/-- What is told about a call from its default configuration on. Neither the
disk nor a text has a part in it. -/
def defaultStory (run : Runner) (c : CommandLine) : Report :=
  match Plan.resolve {} (overrides c) with
  | .error e => ⟨[complaint ("resolve config: " ++ e.message)], configErrorCode⟩
  | .ok p =>
    .after [.log (.debug "resolved ignore list"
        [("profile", p.profile), ("ignored", toString p.invocation.ignore.length)])]
      (if c.dryRun then preview p.invocation else audit run p.invocation)

/-- The record of the source comes first, and the rest does not depend on
the source. -/
theorem story_of_default {host : Host} {c : CommandLine} {text : String}
    (htext : Supplies host.disk c.config text) (hcfg : Plan.configOf text = .ok {}) :
    story host c
      = .after [.log (sourceRecord host.disk c.config)] (defaultStory host.run c) := by
  cases hresolve : Plan.resolve {} (overrides c) with
  | error cause =>
      have hrefused : Refused host.disk c (.plan text (.resolve cause)) :=
        .unresolved htext hcfg hresolve
      rw [story, plan_eq_of_refused hrefused, defaultStory, hresolve]
      rfl
  | ok p =>
      have hplanned : Planned host.disk c p := .intro htext hcfg hresolve
      rw [story, plan_eq_of_planned hplanned, defaultStory, hresolve]
      rfl

/-! ## Two calls -/

/-- The record that tells where the configuration comes from. -/
def tellsSource : Event → Bool
  | .log r =>
    r.message = "loaded config" || r.message = "no config file, using built-in defaults"
  | _ => false

/-- The reports differ in nothing but what they tell about the source of the
configuration. -/
structure AgreeUpToSource (r r' : Report) : Prop where
  exitCode : r.exitCode = r'.exitCode
  stdout : r.stdout = r'.stdout
  calls : r.calls = r'.calls
  events : r.events.filter (!tellsSource ·) = r'.events.filter (!tellsSource ·)

theorem AgreeUpToSource.refl (r : Report) : AgreeUpToSource r r := ⟨rfl, rfl, rfl, rfl⟩

/-- Two reports that agree with a third agree with each other. -/
theorem AgreeUpToSource.of_both {r r' s : Report} (h : AgreeUpToSource r s)
    (h' : AgreeUpToSource r' s) : AgreeUpToSource r r' :=
  ⟨h.exitCode.trans h'.exitCode.symm, h.stdout.trans h'.stdout.symm,
    h.calls.trans h'.calls.symm, h.events.trans h'.events.symm⟩

theorem tellsSource_sourceRecord (d : Disk) (config : Option String) :
    tellsSource (.log (sourceRecord d config)) = true := by
  cases config with
  | some path => rfl
  | none =>
      rw [sourceRecord]
      split <;> rfl

/-- A record of the source in front of a report adds nothing to it, at any
verbosity. -/
theorem agreeUpToSource_after (r : Report) {record : Log.Record}
    (h : tellsSource (.log record) = true) (verbosity : Nat) :
    AgreeUpToSource ((Report.after [.log record] r).shownAt verbosity) (r.shownAt verbosity) := by
  have hself : (r.shownAt verbosity).Reads _ _ _ _ := ⟨rfl, rfl, rfl, rfl⟩
  have hreads := hself.after_logs [record]
  refine ⟨hreads.exitCode, hreads.stdout, hreads.calls, ?_⟩
  have hdrop : ¬ (!tellsSource (.log record) && (Event.log record).isShown verbosity) = true := by
    rw [h]
    exact Bool.false_ne_true
  simp only [Report.shownAt, Report.after, List.singleton_append, List.filter_filter]
  exact List.filter_cons_of_neg hdrop

/-- **An empty configuration is no configuration.** Put a blank file, or a
document without a key, in the place of a configuration that is missing: no
command line that names no other configuration comes to another end. -/
theorem empty_config_changes_nothing (guise : Guise) (run : Runner)
    (advice : String → List String → String) {d : Disk} {args : List String} {text : String}
    (executable : Bool) (hargs : Unconfigured args) (hfree : d.get? (configPlace d) = none)
    (htext : Keyless text) :
    AgreeUpToSource (call guise ⟨withConfig d text.toUTF8 executable, run, advice⟩ args)
      (call guise ⟨d, run, advice⟩ args) := by
  obtain ⟨t, ht, hsupplies⟩ := supplies_withConfig d text executable
  have habsent : Supplies d none "" := .absent rfl (holds_default_eq_false hfree)
  have hdefault : Plan.configOf t = .ok {} := by
    rcases ht with rfl | rfl
    · exact configOf_of_keyless htext
    · decide +kernel
  cases hc : CommandLine.ofArgs? (guise.arguments args) with
  | error stop =>
      -- A line that asks for no run is answered without a look at the disk.
      have hsame : call guise ⟨withConfig d text.toUTF8 executable, run, advice⟩ args
          = call guise ⟨d, run, advice⟩ args := by
        rw [call, call, hc]
        cases stop <;> rfl
      rw [hsame]
      exact .refl _
  | ok c =>
      have hconfig := (unconfigured_arguments hargs guise).config hc
      rw [← hconfig] at hsupplies habsent
      rw [call_of_ofArgs? hc, call_of_ofArgs? hc, story_of_default hsupplies hdefault,
        story_of_default habsent (by decide +kernel)]
      exact (agreeUpToSource_after _ (tellsSource_sourceRecord _ _) c.verbosity).of_both
        (agreeUpToSource_after _ (tellsSource_sourceRecord _ _) c.verbosity)

/-- A byte order mark and a comment: this file is no blank one, and one flag
for verbosity shows the record of the source for it alone. -/
theorem empty_config_changes_nothing_of_comment :
    let run : Runner := fun _ _ => .ended "" "" (.code 0)
    let text := "\ufeff#0\r\n\t"
    Text.isBlank text = false ∧ Keyless text ∧ Unconfigured ["-v"]
      ∧ AgreeUpToSource
        (call .standalone ⟨withConfig .bare text.toUTF8 false, run, CommandLine.plainAdvice⟩ ["-v"])
        (call .standalone ⟨.bare, run, CommandLine.plainAdvice⟩ ["-v"]) := by
  intro run text
  have hargs : Unconfigured ["-v"] := CommandLine.unconfigured_of_forall (by decide)
  have hgap : Toml.Gap ['#', '0', '\r', '\n', '\t'] [] :=
    .comment (List.forall_mem_singleton.mpr (.inr (.inl (by decide)))) (.crlf _)
      (.space (.inr rfl) (.nil _))
  have hmarked : Toml.Marked "\ufeff#0\r\n\t".toList ['#', '0', '\r', '\n', '\t'] := .marked _
  have htext : Keyless text := .inr ⟨_, hmarked, hgap⟩
  exact ⟨by decide +kernel, htext, hargs,
    empty_config_changes_nothing .standalone run _ false hargs rfl htext⟩

end Gate

end AdvisoryGate
