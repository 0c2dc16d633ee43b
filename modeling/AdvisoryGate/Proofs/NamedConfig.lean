import AdvisoryGate.Proofs.EmptyConfig

/-!
# The default configuration, named

A call that names the default path of the configuration beside the same
call that leaves it out. If something is found at the path, both read it,
and they are the same call to the last character, whatever it is that stands
there (`story_named`); what cannot be read as a text is an error in both and
never stands for the defaults. If nothing stands there, only the call that
names it complains.

The headline is `naming_the_default_config`. It is about every line that
names no configuration, also one that is not accepted, and about every
place in it behind options that are. A line that is not understood is
refused with the same words, but what is written below them is not the
gate's. What the headline does not speak of is a configuration that is there
but cannot be seen: the call that does not name it takes it for missing
(`call_unseen`).
-/

namespace AdvisoryGate

namespace Disk

/-! ## What cannot be read -/

/-- Something is found at the path, but it cannot be read as a text, and this
is how the system says so. -/
inductive Unreadable (d : Disk) (path : String) : SystemError → Prop
  | refused {place : List String} {entry : Entry} {cause : SystemError} :
      d.placeOf path = .ok place → d.see place = .ok entry →
        d.obstacles.refusal? .read place = some cause → Unreadable d path cause
  | directory {place : List String} :
      d.placeOf path = .ok place → d.see place = .ok .directory →
        d.obstacles.refusal? .read place = none → Unreadable d path SystemError.isDirectory
  | malformed {content : ByteArray} :
      d.readBytes path = .ok content → String.fromUTF8? content = none →
        Unreadable d path SystemError.notText

variable {d : Disk} {path : String} {cause : SystemError}

theorem readText_of_readBytes_error (h : d.readBytes path = .error cause) :
    d.readText path = .error cause := by
  rw [readText, h]
  rfl

theorem readText_of_missing (h : d.find path = .error cause) :
    d.readText path = .error cause := by
  refine readText_of_readBytes_error ?_
  rw [find, bind_error_iff] at h
  rcases h with hplace | ⟨place, hplace, hsee⟩
  · rw [readBytes, hplace]
    rfl
  · rw [readBytes, hplace]
    simp only [bind, Except.bind, hsee]

theorem Unreadable.readText_error (h : Unreadable d path cause) :
    d.readText path = .error cause := by
  cases h with
  | refused hplace hsee hread =>
      refine readText_of_readBytes_error ?_
      simp only [readBytes, hplace, hsee, hread, bind, Except.bind]
  | directory hplace hsee hread =>
      refine readText_of_readBytes_error ?_
      simp only [readBytes, hplace, hsee, hread, bind, Except.bind]
  | malformed hbytes hnone =>
      rw [readText, hbytes]
      simp only [bind, Except.bind, hnone]

theorem unreadable_or_readText {entry : Entry} (h : d.find path = .ok entry) :
    (∃ cause, Unreadable d path cause) ∨ ∃ text, d.readText path = .ok text := by
  obtain ⟨place, hplace, hsee⟩ := find_ok_iff.mp h
  cases hrefusal : d.obstacles.refusal? .read place with
  | some cause => exact .inl ⟨cause, .refused hplace hsee hrefusal⟩
  | none =>
      cases entry with
      | directory => exact .inl ⟨_, .directory hplace hsee hrefusal⟩
      | file content executable =>
          have hbytes := readBytes_ok_iff.mpr ⟨place, executable, hplace, hsee, hrefusal⟩
          cases htext : String.fromUTF8? content with
          | none => exact .inl ⟨_, .malformed hbytes htext⟩
          | some text => exact .inr ⟨text, readText_ok_iff.mpr ⟨content, hbytes, htext⟩⟩

/-- These are all the ways in which reading what is found can fail. -/
theorem readText_error_iff {entry : Entry} (h : d.find path = .ok entry) :
    d.readText path = .error cause ↔ Unreadable d path cause := by
  refine ⟨fun hread => ?_, Unreadable.readText_error⟩
  rcases unreadable_or_readText h with ⟨cause', hunreadable⟩ | ⟨text, htext⟩
  · obtain rfl := Except.error.inj (hread.symm.trans hunreadable.readText_error)
    exact hunreadable
  · cases hread.symm.trans htext

end Disk

namespace Gate

open CommandLine (ofArgs? Row Item Unconfigured withConfigPath plainAdvice)
open Disk (Unreadable)

/-! ## The default path, named or not -/

/-- The line, with the default path named. -/
def named (c : CommandLine) : CommandLine := withConfigPath (some defaultConfigPath) c

theorem configText_named {d : Disk} (h : d.holds defaultConfigPath = true) :
    configText d (some defaultConfigPath) = configText d none := by
  rw [configText, configText, if_pos h]

/-- If something stands at the default path, naming it makes no difference. -/
theorem story_named {host : Host} (h : host.disk.holds defaultConfigPath = true)
    {c : CommandLine} (hc : c.config = none) : story host (named c) = story host c := by
  have hplan : plan host.disk (named c) = plan host.disk c := by
    rw [plan, plan, hc, ← configText_named h]
    rfl
  rw [story, story, hplan]
  rfl

/-- What is seen of a call that cannot read the default configuration. -/
def ShowsUnread (cause : SystemError) (r : Report) : Prop :=
  r.Reads 2 [] ""
    ("audit-gate error: read config: audit-gate.toml: " ++ cause.message ++ "\n")

theorem showsUnread_of_source {guise : Guise} {host : Host} {args : List String}
    {c : CommandLine} {cause : SystemError} (hc : ofArgs? (guise.arguments args) = .ok c)
    (hsource : Source host.disk c.config defaultConfigPath)
    (hread : host.disk.readText defaultConfigPath = .error cause) :
    ShowsUnread cause (call guise host args) := by
  have hshows := (Takes.refusal hc (.unread hsource hread)).shows
  have htext : ("" : String) ++ ("audit-gate error: "
        ++ ("read config: " ++ "audit-gate.toml" ++ ": " ++ cause.message) ++ "\n")
      = "audit-gate error: read config: audit-gate.toml: " ++ cause.message ++ "\n" := by
    rw [← String.toList_inj]
    simp
  rw [ShowsUnread, ← htext]
  exact hshows

/-! ## Two calls -/

/-- The words put in name the default path, and the rest of the line says
what it said. -/
theorem ofArgs?_named {before given after : List String} {items : List Item} {c₀ : CommandLine}
    (hbefore : Row before items) (hc₀ : ofArgs? before = .ok c₀)
    (hgiven : Row given [.value .config defaultConfigPath])
    (hlacks : Unconfigured (before ++ after)) :
    ofArgs? (before ++ (given ++ after)) = (ofArgs? (before ++ after)).map named := by
  have hlacksBefore : Unconfigured before := hlacks.mono fun _ => List.mem_append_left _
  have hlacksAfter : Unconfigured after := hlacks.mono fun _ => List.mem_append_right _
  have hnone : c₀.config = none := hlacksBefore.config hc₀
  have hadded : [Item.value .config defaultConfigPath].foldlM CommandLine.enter c₀
      = .ok (named c₀) := by
    simp [CommandLine.enter, CommandLine.store, named, withConfigPath, hnone]
  rw [CommandLine.ofArgs?_row hbefore] at hc₀
  exact CommandLine.ofArgs?_insert hbefore hc₀ hgiven hadded (hlacksAfter.respects _)

section Calls

variable {guise : Guise} {host : Host} {args args' : List String} {c : CommandLine}
  {cause : SystemError}

theorem call_named
    (hnamed : ofArgs? (guise.arguments args') = (ofArgs? (guise.arguments args)).map named)
    (hc : ofArgs? (guise.arguments args) = .ok c) (hnone : c.config = none)
    (hholds : host.disk.holds defaultConfigPath = true) :
    call guise host args' = call guise host args := by
  rw [hc] at hnamed
  rw [call_of_ofArgs? hc, call_of_ofArgs? hnamed, story_named hholds hnone]
  rfl

/-- If the default configuration cannot be found, for whatever cause, the call
that names it says so, and the call that does not goes on with the defaults.
So a configuration that is there but cannot be seen is passed over. -/
theorem call_unseen
    (hnamed : ofArgs? (guise.arguments args') = (ofArgs? (guise.arguments args)).map named)
    (hc : ofArgs? (guise.arguments args) = .ok c) (hnone : c.config = none)
    (hcause : host.disk.find defaultConfigPath = .error cause) :
    ShowsUnread cause (call guise host args')
      ∧ call guise host args
        = (Report.after [.log (.debug "no config file, using built-in defaults"
            [("path", "audit-gate.toml")])] (defaultStory host.run c)).shownAt c.verbosity := by
  have hholds := Disk.holds_of_find_error hcause
  rw [hc] at hnamed
  refine ⟨showsUnread_of_source hnamed (.named _) (Disk.readText_of_missing hcause), ?_⟩
  have hsupplies : Supplies host.disk c.config "" := .absent hnone hholds
  rw [call_of_ofArgs? hc, story_of_default hsupplies (by decide +kernel), hnone, sourceRecord,
    hholds]
  rfl

end Calls

/-- **The default configuration can be named.** Put the default path of the
configuration in a line that names none, in front of everything or behind
options that are accepted by themselves. A line that asks about the gate is answered as before, and one that is not understood is
refused for the same reason. Any other line comes to the same call if
something is found at the path; what cannot be read there is reported in
both calls and nothing is run. If nothing stands there, the call that names
the path reports that, while the other goes on with the defaults. -/
theorem naming_the_default_config (guise : Guise) (host : Host)
    {args args' before given after : List String} {items : List Item} {c₀ : CommandLine}
    (hargs : guise.arguments args = before ++ after)
    (hargs' : guise.arguments args' = before ++ (given ++ after))
    (hbefore : Row before items) (hc₀ : ofArgs? before = .ok c₀)
    (hgiven : Row given [.value .config defaultConfigPath])
    (hlacks : Unconfigured (before ++ after)) :
    (∀ n, ofArgs? (guise.arguments args) = .error (.notice n) →
        (call guise host args).Reads 0 [] (n.text guise.name) ""
          ∧ call guise host args' = call guise host args)
      ∧ (∀ e, ofArgs? (guise.arguments args) = .error (.usage e) →
        (call guise host args).Reads 2 [] ""
            (e.report (host.advice guise.name (before ++ after)))
          ∧ (call guise host args').Reads 2 [] ""
            (e.report (host.advice guise.name (before ++ (given ++ after)))))
      ∧ ∀ c, ofArgs? (guise.arguments args) = .ok c →
        (∀ entry, host.disk.find defaultConfigPath = .ok entry →
          call guise host args' = call guise host args
            ∧ ∀ cause, Unreadable host.disk defaultConfigPath cause →
              ShowsUnread cause (call guise host args) ∧ ShowsUnread cause (call guise host args'))
        ∧ (host.disk.find defaultConfigPath = .error SystemError.noEntry →
          ShowsUnread SystemError.noEntry (call guise host args')
            ∧ call guise host args
              = (Report.after [.log (.debug "no config file, using built-in defaults"
                  [("path", "audit-gate.toml")])] (defaultStory host.run c)).shownAt
                    c.verbosity) := by
  have hnamed : ofArgs? (guise.arguments args')
      = (ofArgs? (guise.arguments args)).map named := by
    rw [hargs, hargs']
    exact ofArgs?_named hbefore hc₀ hgiven hlacks
  refine ⟨fun n hn => ?_, fun e he => ?_, fun c hc => ?_⟩
  · rw [hn] at hnamed
    exact ⟨shows_notice guise hn, by rw [call_of_notice hn, call_of_notice hnamed]⟩
  · rw [he] at hnamed
    rw [← hargs, ← hargs']
    exact ⟨shows_misuse guise he, shows_misuse guise hnamed⟩
  · have hnone : c.config = none := by
      rw [hargs] at hc
      exact hlacks.config hc
    refine ⟨fun entry hentry => ?_, fun hmissing => call_unseen hnamed hc hnone hmissing⟩
    have hholds := Disk.holds_of_find hentry
    have hsame := call_named hnamed hc hnone hholds
    refine ⟨hsame, fun cause hunreadable => ?_⟩
    have hsource : Source host.disk c.config defaultConfigPath := by
      rw [hnone]
      exact .implied hholds
    have hunread := showsUnread_of_source hc hsource ((Disk.readText_error_iff hentry).mpr hunreadable)
    exact ⟨hunread, hsame ▸ hunread⟩

/-- A directory in which a configuration stands. -/
def withFile (content : ByteArray) (obstacles : Obstacles) : Disk :=
  (withConfig .bare content false).under obstacles

/-- An access to the configuration is refused. -/
def refusing (access : Access) (cause : SystemError) : Obstacles :=
  ⟨fun a p => if a = access ∧ p = [defaultConfigPath] then some cause else none, fun _ => none⟩

/-- A file that is no text, one that may not be read, and no file at all. -/
theorem naming_the_default_config_unread :
    let host (d : Disk) : Host := ⟨d, fun _ _ => .ended "" "" (.code 0), plainAdvice⟩
    let line := ["--dry-run", "-v"]
    let line' := ["--dry-run", "--config", "audit-gate.toml", "-v"]
    let binary := host (withFile ⟨#[0xff]⟩ .none)
    let locked := host (withFile .empty (refusing .read SystemError.denied))
    ofArgs? ["--dry-run"] = .ok { dryRun := true }
      ∧ Row ["--config", "audit-gate.toml"] [.value .config defaultConfigPath]
      ∧ Unconfigured ["--dry-run", "-v"]
      ∧ call .standalone binary line' = call .standalone binary line
      ∧ ShowsUnread SystemError.notText (call .standalone binary line)
      ∧ ShowsUnread SystemError.denied (call .standalone locked line)
      ∧ ShowsUnread SystemError.noEntry (call .standalone (host .bare) line') := by
  intro host line line' binary locked
  have hbefore : ofArgs? ["--dry-run"] = .ok { dryRun := true } := by decide +kernel
  have hrow : Row ["--dry-run"] [.flag .dryRun true] := .named .dryRun .nil
  have hgiven : Row ["--config", "audit-gate.toml"] [.value .config defaultConfigPath] :=
    .apart .config "audit-gate.toml" (Or.inl (by decide)) .nil
  have hlacks : Unconfigured ["--dry-run", "-v"] :=
    CommandLine.unconfigured_of_forall (by decide)
  have hline : ofArgs? line = .ok { dryRun := true, verbosity := 1 } := by decide +kernel
  have hargs : Guise.standalone.arguments line = ["--dry-run"] ++ ["-v"] := rfl
  have hargs' : Guise.standalone.arguments line'
      = ["--dry-run"] ++ (["--config", "audit-gate.toml"] ++ ["-v"]) := rfl
  have hcall := fun d => (naming_the_default_config .standalone (host d) hargs hargs' hrow hbefore
    hgiven hlacks).2.2 _ hline
  -- Each file is found, and reading it fails.
  have hbinary : binary.disk.find defaultConfigPath = .ok (.file ⟨#[0xff]⟩ false) := by
    decide +kernel
  have hlocked : locked.disk.find defaultConfigPath = .ok (.file .empty false) := by
    decide +kernel
  have hmissing : Disk.bare.find defaultConfigPath = .error SystemError.noEntry := by
    decide +kernel
  have hnoText : Unreadable binary.disk defaultConfigPath SystemError.notText :=
    (Disk.readText_error_iff hbinary).mp (by decide +kernel)
  have hdenied : Unreadable locked.disk defaultConfigPath SystemError.denied :=
    (Disk.readText_error_iff hlocked).mp (by decide +kernel)
  obtain ⟨hsame, hunread⟩ := (hcall binary.disk).1 _ hbinary
  obtain ⟨-, hunread'⟩ := (hcall locked.disk).1 _ hlocked
  exact ⟨hbefore, hgiven, hlacks, hsame, (hunread _ hnoText).1, (hunread' _ hdenied).1,
    ((hcall .bare).2 hmissing).1⟩

/-- **Naming it can make a difference** where one might expect none. A line
that asks for help is answered, though the configuration that it names is
missing. A configuration that is there, but behind a link that leads in
circles, is an error only if it is named. And the advice about a line that is
not understood can show the options in it. -/
theorem naming_the_default_config_apart :
    let run : Runner := fun _ _ => .ended "" "" (.code 0)
    let missing : Host := ⟨.bare, run, plainAdvice⟩
    let hidden : Host := ⟨withFile .empty (refusing .look (.number 40)), run, plainAdvice⟩
    let wordy : Host := ⟨.bare, run, fun _ words => " ".intercalate words⟩
    (call .standalone missing ["--config", "audit-gate.toml", "--help"]).Reads
        0 [] (CommandLine.helpText "audit-gate" true) ""
      ∧ hidden.disk.get? [defaultConfigPath] = some (.file .empty false)
      ∧ ShowsUnread (.number 40)
        (call .standalone hidden ["--config", "audit-gate.toml", "--dry-run"])
      ∧ (call .standalone hidden ["--dry-run"]).exitCode = 0
      ∧ (call .standalone wordy ["--config", "audit-gate.toml", "--bogus"]).stderr
        ≠ (call .standalone wordy ["--bogus"]).stderr := by
  intro run missing hidden wordy
  have hnamed : ofArgs? (Guise.standalone.arguments ["--config", "audit-gate.toml", "--dry-run"])
      = (ofArgs? (Guise.standalone.arguments ["--dry-run"])).map named := by decide +kernel
  have hline : ofArgs? (Guise.standalone.arguments ["--dry-run"]) = .ok { dryRun := true } := by
    decide +kernel
  have hcause : hidden.disk.find defaultConfigPath = .error (.number 40) := by decide +kernel
  have hunread : ShowsUnread (.number 40)
      (call .standalone hidden ["--config", "audit-gate.toml", "--dry-run"]) :=
    (call_unseen hnamed hline rfl hcause).1
  have hhelp : ofArgs? (Guise.standalone.arguments ["--config", "audit-gate.toml", "--help"])
      = .error (.notice (.help true)) := by decide +kernel
  refine ⟨shows_notice .standalone hhelp, by decide +kernel, hunread, ?_, ?_⟩
  all_goals decide +kernel

end Gate

end AdvisoryGate
