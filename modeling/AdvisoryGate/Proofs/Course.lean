import AdvisoryGate.Gate
import AdvisoryGate.Proofs.Resolution

/-!
# The course of a call

What a call of the gate comes to, said without its code. A `Course` is one
of the ways in which a call can go; `Takes` says which one it goes, from the
words of the command line and the disk alone, and `Course.Shows` says what
is then seen: the exit code, the commands that were run, and both streams
to the last character, of which the advice below a usage error is the host's.

`Refused` and `Planned` describe the configuration in the same manner: what
is read (`Supplies`), then parsed, then resolved, and where this can stop.
`plan_eq_of_refused` and `plan_eq_of_planned` tie them to `Gate.plan`;
after these no proof looks inside it.

The headline is `call_takes_one_course`: every call takes exactly one
course and shows what the course says, whatever comes of the auditor.
-/

namespace AdvisoryGate

/-! ## Reading a report -/

/-- The lines of the records that a verbosity shows. -/
def Log.linesAt (verbosity : Nat) (records : List Log.Record) : String :=
  String.join ((records.filter (·.isShown verbosity)).map (·.line))

/-- All that is seen of a report. -/
structure Report.Reads (r : Report) (exitCode : Int) (calls : List (String × List String))
    (stdout stderr : String) : Prop where
  exitCode : r.exitCode = exitCode
  calls : r.calls = calls
  stdout : r.stdout = stdout
  stderr : r.stderr = stderr

theorem Log.linesAt_hidden {verbosity : Nat} {records : List Log.Record}
    (h : ∀ x ∈ records, x.isShown verbosity = false) : Log.linesAt verbosity records = "" := by
  have hnil : records.filter (·.isShown verbosity) = [] :=
    List.filter_eq_nil_iff.mpr fun x hx => by simp [h x hx]
  rw [linesAt, hnil]
  rfl

theorem filter_isShown_logs (verbosity : Nat) (records : List Log.Record) :
    (records.map Event.log).filter (·.isShown verbosity)
      = (records.filter (·.isShown verbosity)).map Event.log := by
  rw [List.filter_map]
  rfl

theorem out_logs : ∀ records : List Log.Record,
    String.join ((records.map Event.log).map (·.out)) = ""
  | [] => rfl
  | r :: records => by
      rw [List.map_cons, List.map_cons, String.join_cons, out_logs records]
      rfl

theorem err_logs (records : List Log.Record) :
    String.join ((records.map Event.log).map (·.err)) = String.join (records.map (·.line)) := by
  rw [List.map_map]
  rfl

theorem call?_logs (records : List Log.Record) :
    (records.map Event.log).filterMap (·.call?) = [] := by
  rw [List.filterMap_map]
  exact List.filterMap_eq_nil_iff.mpr fun _ _ => rfl

namespace Report

variable {r : Report} {verbosity : Nat} {exitCode : Int} {calls : List (String × List String)}
  {stdout stderr : String}

theorem Reads.nil (verbosity : Nat) (exitCode : Int) :
    (shownAt verbosity ⟨[], exitCode⟩).Reads exitCode [] "" "" :=
  ⟨rfl, rfl, rfl, rfl⟩

/-- Records in front of a report are seen on its error stream only. -/
theorem Reads.after_logs (h : (r.shownAt verbosity).Reads exitCode calls stdout stderr)
    (records : List Log.Record) :
    ((after (records.map .log) r).shownAt verbosity).Reads exitCode calls stdout
      (Log.linesAt verbosity records ++ stderr) := by
  obtain ⟨hcode, hcalls, hout, herr⟩ := h
  simp only [shownAt, Report.calls, Report.stdout, Report.stderr] at hcode hcalls hout herr
  refine ⟨hcode, ?_, ?_, ?_⟩
  all_goals simp only [shownAt, after, Report.calls, Report.stdout, Report.stderr,
    List.filter_append, filter_isShown_logs]
  · rw [List.filterMap_append, call?_logs, hcalls]
    rfl
  · rw [List.map_append, String.join_append, out_logs, hout]
    exact String.empty_append
  · rw [List.map_append, String.join_append, err_logs, herr]
    rfl

/-- An event that cannot be hidden puts its own part in front. -/
theorem Reads.after_event (h : (r.shownAt verbosity).Reads exitCode calls stdout stderr)
    {e : Event} (he : e.isShown verbosity = true) :
    ((after [e] r).shownAt verbosity).Reads exitCode (e.call?.toList ++ calls)
      (e.out ++ stdout) (e.err ++ stderr) := by
  obtain ⟨hcode, hcalls, hout, herr⟩ := h
  simp only [shownAt, Report.calls, Report.stdout, Report.stderr] at hcode hcalls hout herr
  refine ⟨hcode, ?_, ?_, ?_⟩
  all_goals simp only [shownAt, after, Report.calls, Report.stdout, Report.stderr,
    List.singleton_append, List.filter_cons_of_pos he]
  · rw [List.filterMap_cons, hcalls]
    cases e.call? <;> rfl
  · rw [List.map_cons, String.join_cons, hout]
  · rw [List.map_cons, String.join_cons, herr]

/-- A report that tells of one event that cannot be hidden. -/
theorem Reads.single (verbosity : Nat) (exitCode : Int) {e : Event}
    (he : e.isShown verbosity = true) :
    (shownAt verbosity (after [e] ⟨[], exitCode⟩)).Reads exitCode e.call?.toList e.out e.err := by
  have h := (Reads.nil verbosity exitCode).after_event he
  rwa [List.append_nil, String.append_empty, String.append_empty] at h

/-- A child's streams come between what is told before it and after it. -/
theorem Reads.after_child (h : (r.shownAt verbosity).Reads exitCode [] stdout stderr)
    (records : List Log.Record) (program : String) (args : List String) (child : Child) :
    ((after (records.map .log) (after [.ran program args child] r)).shownAt verbosity).Reads
      exitCode [(program, args)] (child.out ++ stdout)
      (Log.linesAt verbosity records ++ (child.err ++ stderr)) :=
  (h.after_event (e := .ran program args child) rfl).after_logs records

theorem shownAt_after_hidden {records : List Log.Record}
    (h : ∀ x ∈ records, x.isShown verbosity = false) (r : Report) :
    (after (records.map .log) r).shownAt verbosity = r.shownAt verbosity := by
  have hnil : records.filter (·.isShown verbosity) = [] :=
    List.filter_eq_nil_iff.mpr fun x hx => by simp [h x hx]
  simp only [shownAt, after, List.filter_append, filter_isShown_logs, hnil]
  rfl

end Report

namespace Gate

/-! ## The configuration -/

/-- The path from which a configuration is read: the one that is named, or
the default one if something is there. -/
inductive Source (d : Disk) : Option String → String → Prop
  | named (path : String) : Source d (some path) path
  | implied : d.holds defaultConfigPath = true → Source d none defaultConfigPath

/-- The text of the configuration. -/
inductive Supplies (d : Disk) (config : Option String) : String → Prop
  | read {path text : String} :
      Source d config path → d.readText path = .ok text → Supplies d config text
  | absent : config = none → d.holds defaultConfigPath = false → Supplies d config ""

/-- The configuration cannot be read, parsed or resolved. -/
inductive Refused (d : Disk) (c : CommandLine) : Error → Prop
  | unread {path : String} {cause : SystemError} :
      Source d c.config path → d.readText path = .error cause → Refused d c (.read path cause)
  | unparsed {text : String} {cause : Config.Error} :
      Supplies d c.config text → Plan.configOf text = .error cause →
        Refused d c (.plan text (.parse cause))
  | unresolved {text : String} {cfg : Config} {cause : Plan.ResolveError} :
      Supplies d c.config text → Plan.configOf text = .ok cfg →
        Plan.resolve cfg (overrides c) = .error cause →
        Refused d c (.plan text (.resolve cause))

/-- The configuration is read, parsed and resolved to a plan. -/
inductive Planned (d : Disk) (c : CommandLine) : Plan → Prop
  | intro {text : String} {cfg : Config} {p : Plan} :
      Supplies d c.config text → Plan.configOf text = .ok cfg →
        Plan.resolve cfg (overrides c) = .ok p → Planned d c p

/-- What is told about where the configuration comes from. -/
def sourceRecord (d : Disk) : Option String → Log.Record
  | some path => .info "loaded config" [("path", path)]
  | none =>
    if d.holds defaultConfigPath then .info "loaded config" [("path", defaultConfigPath)]
    else .debug "no config file, using built-in defaults" [("path", defaultConfigPath)]

/-- What is told before a configuration is refused. -/
def refusalRecords (d : Disk) (c : CommandLine) : Error → List Log.Record
  | .read _ _ => []
  | .plan _ _ => [sourceRecord d c.config]

/-- What is told until there is a plan. -/
def planRecords (d : Disk) (c : CommandLine) (p : Plan) : List Log.Record :=
  [sourceRecord d c.config,
    .debug "resolved ignore list"
      [("profile", p.profile), ("ignored", toString p.invocation.ignore.length)]]

theorem configText_of_unread {d : Disk} {config : Option String} {path : String}
    {cause : SystemError} (hsource : Source d config path)
    (hread : d.readText path = .error cause) :
    configText d config = ([], .error (.read path cause)) := by
  cases hsource with
  | named path => rw [configText, readConfig, hread]
  | implied hholds => rw [configText, if_pos hholds, readConfig, hread]

theorem configText_of_supplies {d : Disk} {config : Option String} {text : String}
    (h : Supplies d config text) :
    configText d config = ([.log (sourceRecord d config)], .ok text) := by
  cases h with
  | read hsource hread =>
      cases hsource with
      | named path => rw [configText, readConfig, hread]; rfl
      | implied hholds => rw [configText, if_pos hholds, readConfig, hread, sourceRecord, if_pos hholds]
  | absent hconfig hholds =>
      subst hconfig
      rw [configText, sourceRecord, hholds]
      rfl

theorem unread_or_supplies (d : Disk) (config : Option String) :
    (∃ path cause, Source d config path ∧ d.readText path = .error cause)
      ∨ ∃ text, Supplies d config text := by
  have hread : ∀ path, Source d config path →
      (∃ path cause, Source d config path ∧ d.readText path = .error cause)
        ∨ ∃ text, Supplies d config text := by
    intro path hsource
    cases h : d.readText path with
    | error cause => exact Or.inl ⟨path, cause, hsource, h⟩
    | ok text => exact Or.inr ⟨text, .read hsource h⟩
  cases config with
  | some path => exact hread path (.named path)
  | none =>
      cases hholds : d.holds defaultConfigPath with
      | true => exact hread _ (.implied hholds)
      | false => exact Or.inr ⟨"", .absent rfl hholds⟩

/-! ## From the configuration to the plan -/

theorem plan_eq_of_refused {d : Disk} {c : CommandLine} {e : Error} (h : Refused d c e) :
    plan d c = ((refusalRecords d c e).map .log, .error e) := by
  cases h with
  | unread hsource hread =>
      rw [plan, configText_of_unread hsource hread]
      rfl
  | unparsed htext hparse =>
      rw [plan, configText_of_supplies htext]
      simp only [Plan.ofText_eq, hparse]
      rfl
  | unresolved htext hparse hresolve =>
      rw [plan, configText_of_supplies htext]
      simp only [Plan.ofText_eq, hparse, hresolve]
      rfl

theorem plan_eq_of_planned {d : Disk} {c : CommandLine} {p : Plan} (h : Planned d c p) :
    plan d c = ((planRecords d c p).map .log, .ok p) := by
  cases h with
  | intro htext hparse hresolve =>
      rw [plan, configText_of_supplies htext]
      simp only [Plan.ofText_eq, hparse, hresolve]
      rfl

theorem refused_or_planned (d : Disk) (c : CommandLine) :
    (∃ e, Refused d c e) ∨ ∃ p, Planned d c p := by
  rcases unread_or_supplies d c.config with ⟨path, cause, hsource, hread⟩ | ⟨text, htext⟩
  · exact Or.inl ⟨_, .unread hsource hread⟩
  · cases hparse : Plan.configOf text with
    | error cause => exact Or.inl ⟨_, .unparsed htext hparse⟩
    | ok cfg =>
        cases hresolve : Plan.resolve cfg (overrides c) with
        | error cause => exact Or.inl ⟨_, .unresolved htext hparse hresolve⟩
        | ok p => exact Or.inr ⟨p, .intro htext hparse hresolve⟩

theorem Refused.unique {d : Disk} {c : CommandLine} {e e' : Error} (h : Refused d c e)
    (h' : Refused d c e') : e = e' := by
  have heq := (plan_eq_of_refused h).symm.trans (plan_eq_of_refused h')
  exact Except.error.inj (congrArg Prod.snd heq)

theorem Planned.unique {d : Disk} {c : CommandLine} {p p' : Plan} (h : Planned d c p)
    (h' : Planned d c p') : p = p' := by
  have heq := (plan_eq_of_planned h).symm.trans (plan_eq_of_planned h')
  exact Except.ok.inj (congrArg Prod.snd heq)

theorem Refused.not_planned {d : Disk} {c : CommandLine} {e : Error} (h : Refused d c e)
    (p : Plan) : ¬ Planned d c p := by
  intro h'
  have heq := (plan_eq_of_refused h).symm.trans (plan_eq_of_planned h')
  cases congrArg Prod.snd heq

/-! ## Courses -/

/-- A way in which a call can go. -/
inductive Course
  /-- The gate is asked about itself. -/
  | notice (n : CommandLine.Notice)
  /-- The command line is not understood. -/
  | misuse (e : CommandLine.UsageError)
  /-- The configuration gives no plan. -/
  | refusal (c : CommandLine) (e : Error)
  /-- The plan is shown. -/
  | preview (c : CommandLine) (p : Plan)
  /-- The auditor is run. -/
  | audit (c : CommandLine) (p : Plan)

/-- The course that a call takes, given the words that are meant for the
gate. What comes of the auditor has no part in it. -/
inductive Takes (d : Disk) (words : List String) : Course → Prop
  | notice {n} : CommandLine.ofArgs? words = .error (.notice n) → Takes d words (.notice n)
  | misuse {e} : CommandLine.ofArgs? words = .error (.usage e) → Takes d words (.misuse e)
  | refusal {c e} :
      CommandLine.ofArgs? words = .ok c → Refused d c e → Takes d words (.refusal c e)
  | preview {c p} :
      CommandLine.ofArgs? words = .ok c → Planned d c p → c.dryRun = true →
        Takes d words (.preview c p)
  | audit {c p} :
      CommandLine.ofArgs? words = .ok c → Planned d c p → c.dryRun = false →
        Takes d words (.audit c p)

/-- The conditions of the courses exclude each other: the command line
decides first, then the configuration, then the flag for a dry run. -/
theorem Takes.unique {d : Disk} {words : List String} {a b : Course} (ha : Takes d words a)
    (hb : Takes d words b) : a = b := by
  cases ha with
  | notice ha | misuse ha =>
      cases hb with
      | notice hb | misuse hb => cases ha.symm.trans hb <;> rfl
      | refusal hb _ | preview hb _ _ | audit hb _ _ => cases ha.symm.trans hb
  | refusal ha hrefused =>
      cases hb with
      | notice hb | misuse hb => cases ha.symm.trans hb
      | refusal hb hrefused' =>
          cases ha.symm.trans hb
          rw [hrefused.unique hrefused']
      | preview hb hplanned _ | audit hb hplanned _ =>
          cases ha.symm.trans hb
          exact absurd hplanned (hrefused.not_planned _)
  | preview ha hplanned hdry =>
      cases hb with
      | notice hb | misuse hb => cases ha.symm.trans hb
      | refusal hb hrefused =>
          cases ha.symm.trans hb
          exact absurd hplanned (hrefused.not_planned _)
      | preview hb hplanned' _ =>
          cases ha.symm.trans hb
          rw [hplanned.unique hplanned']
      | audit hb _ hreal =>
          cases ha.symm.trans hb
          cases hdry.symm.trans hreal
  | audit ha hplanned hreal =>
      cases hb with
      | notice hb | misuse hb => cases ha.symm.trans hb
      | refusal hb hrefused =>
          cases ha.symm.trans hb
          exact absurd hplanned (hrefused.not_planned _)
      | preview hb _ hdry =>
          cases ha.symm.trans hb
          cases hdry.symm.trans hreal
      | audit hb hplanned' _ =>
          cases ha.symm.trans hb
          rw [hplanned.unique hplanned']

/-! ## What a course shows -/

/-- What is told before the auditor is run. -/
def startRecords (d : Disk) (c : CommandLine) (p : Plan) : List Log.Record :=
  planRecords d c p ++ [.info "running auditor" [("command", p.invocation.display)]]

def finishRecord (exit : ChildExit) : Log.Record :=
  .debug "auditor finished" [("exit", exit.display)]

def failureRecord (program : String) : Log.Record :=
  .warn "auditor could not be run" [("program", Text.quoted program)]

/-- What is seen of a run, whatever comes of the child. `before` is what was
told until then. -/
def ShowsRun (c : CommandLine) (inv : Invocation) (before : String) (r : Report) : Child → Prop
  | .ended out err exit =>
    r.Reads exit.exitCode [(inv.program, inv.args)] out
        (before ++ err ++ Log.linesAt c.verbosity [finishRecord exit])
      ∧ (c.verbosity = 0 → r.records = [] ∧ r.stderr = err)
      ∧ ∀ text, .complain text ∉ r.events
  | .notStarted cause =>
    r.Reads 127 [(inv.program, inv.args)] ""
      (before ++ Log.linesAt c.verbosity [failureRecord inv.program]
        ++ ("audit-gate error: failed to launch `" ++ inv.program ++ "`: " ++ cause.message
          ++ "\n"))
  | .lost out err cause =>
    r.Reads 1 [(inv.program, inv.args)] out
      (before ++ err ++ Log.linesAt c.verbosity [failureRecord inv.program]
        ++ ("audit-gate error: failed to wait for `" ++ inv.program ++ "`: " ++ cause.message
          ++ "\n"))

/-- What is seen of a call that takes a course, given the words that are
meant for the gate. -/
def Course.Shows (guise : Guise) (host : Host) (words : List String) (r : Report) : Course → Prop
  | .notice n => r.Reads 0 [] (n.text guise.name) ""
  | .misuse e => r.Reads 2 [] "" (e.report (host.advice guise.name words))
  | .refusal c e =>
    r.Reads 2 [] "" (Log.linesAt c.verbosity (refusalRecords host.disk c e)
      ++ ("audit-gate error: " ++ e.message ++ "\n"))
  | .preview c p =>
    r.Reads 0 [] (p.invocation.display ++ "\n")
      (Log.linesAt c.verbosity (planRecords host.disk c p))
  | .audit c p =>
    ShowsRun c p.invocation (Log.linesAt c.verbosity (startRecords host.disk c p)) r
      (host.run p.invocation.program p.invocation.args)

theorem call_of_ofArgs? {guise : Guise} {host : Host} {args : List String} {c : CommandLine}
    (h : CommandLine.ofArgs? (guise.arguments args) = .ok c) :
    call guise host args = (story host c).shownAt c.verbosity := by
  rw [call, h]
  rfl

/-- A question is answered without a look at the disk. -/
theorem call_of_notice {guise : Guise} {host : Host} {args : List String}
    {n : CommandLine.Notice}
    (h : CommandLine.ofArgs? (guise.arguments args) = .error (.notice n)) :
    call guise host args = ⟨[.print (n.text guise.name)], 0⟩ := by
  rw [call, h]

theorem shows_refusal (guise : Guise) {host : Host} (words : List String) {c : CommandLine}
    {e : Error} (h : Refused host.disk c e) :
    (Course.refusal c e).Shows guise host words ((story host c).shownAt c.verbosity) := by
  have hstory : story host c = Report.after ((refusalRecords host.disk c e).map .log)
      (Report.after [complaint e.message] ⟨[], 2⟩) := by
    rw [story, plan_eq_of_refused h]
    rfl
  have hreads := Report.Reads.single c.verbosity 2 (e := complaint e.message) rfl
  rw [hstory]
  exact hreads.after_logs (refusalRecords host.disk c e)

theorem shows_preview (guise : Guise) {host : Host} (words : List String) {c : CommandLine}
    {p : Plan} (h : Planned host.disk c p) (hdry : c.dryRun = true) :
    (Course.preview c p).Shows guise host words ((story host c).shownAt c.verbosity) := by
  have hstory : story host c = Report.after ((planRecords host.disk c p).map .log)
      (Report.after [.print (p.invocation.display ++ "\n")] ⟨[], 0⟩) := by
    rw [story, plan_eq_of_planned h]
    simp only [hdry]
    rfl
  have hreads := (Report.Reads.single c.verbosity 0
    (e := .print (p.invocation.display ++ "\n")) rfl).after_logs (planRecords host.disk c p)
  rw [hstory]
  rwa [Event.err, String.append_empty] at hreads

theorem story_of_audit {host : Host} {c : CommandLine} {p : Plan} (h : Planned host.disk c p)
    (hreal : c.dryRun = false) :
    story host c = Report.after ((startRecords host.disk c p).map .log)
      (Report.after [.ran p.invocation.program p.invocation.args
          (host.run p.invocation.program p.invocation.args)]
        (Report.after (aftermath p.invocation.program
            ((host.run p.invocation.program p.invocation.args).outcome p.invocation.program))
          ⟨[], ((host.run p.invocation.program p.invocation.args).outcome
            p.invocation.program).exitCode⟩)) := by
  rw [story, plan_eq_of_planned h]
  simp [hreal, audit, Report.after, startRecords]

/-- Without a flag for verbosity nothing is told before a run. -/
theorem startRecords_hidden (d : Disk) (c : CommandLine) (p : Plan) :
    ∀ x ∈ startRecords d c p, x.isShown 0 = false := by
  have hsource : (sourceRecord d c.config).isShown 0 = false := by
    cases c.config with
    | some path => rfl
    | none =>
        rw [sourceRecord]
        split <;> rfl
  intro x hx
  simp only [startRecords, planRecords, List.mem_append, List.mem_cons, List.not_mem_nil,
    or_false] at hx
  rcases hx with (rfl | rfl) | rfl
  · exact hsource
  · rfl
  · rfl

theorem after_aftermath_ok (program : String) (exit : ChildExit) (r : Report) :
    Report.after (aftermath program (.ok exit)) r
      = Report.after ([finishRecord exit].map .log) r := rfl

theorem after_aftermath_error (program : String) (e : RunError) (r : Report) :
    Report.after (aftermath program (.error e)) r
      = Report.after ([failureRecord program].map .log)
          (Report.after [complaint e.message] r) := rfl

theorem message_spawn (program : String) (cause : SystemError) :
    (RunError.spawn program cause).message
      = "failed to launch `" ++ program ++ "`: " ++ cause.message := rfl

theorem message_wait (program : String) (cause : SystemError) :
    (RunError.wait program cause).message
      = "failed to wait for `" ++ program ++ "`: " ++ cause.message := rfl

/-- The end of a story whose run failed. -/
theorem reads_failure (verbosity : Nat) (program : String) (e : RunError) (code : Int) :
    ((Report.after (aftermath program (.error e)) ⟨[], code⟩).shownAt verbosity).Reads
      code [] "" (Log.linesAt verbosity [failureRecord program]
        ++ ("audit-gate error: " ++ e.message ++ "\n")) := by
  have h := Report.Reads.single verbosity code (e := complaint e.message) rfl
  rw [after_aftermath_error]
  exact h.after_logs [failureRecord program]

theorem shows_audit (guise : Guise) {host : Host} (words : List String) {c : CommandLine}
    {p : Plan} (h : Planned host.disk c p) (hreal : c.dryRun = false) :
    (Course.audit c p).Shows guise host words ((story host c).shownAt c.verbosity) := by
  rw [story_of_audit h hreal, Course.Shows]
  cases hchild : host.run p.invocation.program p.invocation.args with
  | notStarted cause =>
      have htail := reads_failure c.verbosity p.invocation.program
        (.spawn p.invocation.program cause) 127
      have hreads := htail.after_child (startRecords host.disk c p)
        p.invocation.program p.invocation.args (.notStarted cause)
      rw [message_spawn] at hreads
      simp only [Child.out, Child.err, String.empty_append, String.append_assoc] at hreads
      simp only [ShowsRun, String.append_assoc]
      exact hreads
  | lost out err cause =>
      have htail := reads_failure c.verbosity p.invocation.program
        (.wait p.invocation.program cause) 1
      have hreads := htail.after_child (startRecords host.disk c p)
        p.invocation.program p.invocation.args (.lost out err cause)
      rw [message_wait] at hreads
      simp only [Child.out, Child.err, String.append_empty, String.append_assoc] at hreads
      simp only [ShowsRun, String.append_assoc]
      exact hreads
  | ended out err exit =>
      have htail := (Report.Reads.nil c.verbosity exit.exitCode).after_logs [finishRecord exit]
      have hreads := htail.after_child (startRecords host.disk c p)
        p.invocation.program p.invocation.args (.ended out err exit)
      simp only [Child.out, Child.err, String.append_empty] at hreads
      simp only [ShowsRun, String.append_assoc, Child.outcome, after_aftermath_ok]
      refine ⟨hreads, fun hquiet => ?_, fun text => ?_⟩
      · have hfinish : Log.linesAt 0 [finishRecord exit] = "" := rfl
        rw [hquiet] at hreads ⊢
        refine ⟨?_, ?_⟩
        · rw [Report.shownAt_after_hidden (startRecords_hidden host.disk c p)]
          rfl
        · refine hreads.stderr.trans ?_
          rw [Log.linesAt_hidden (startRecords_hidden host.disk c p), hfinish,
            String.empty_append, String.append_empty]
      · simp [Report.shownAt, Report.after]

theorem shows_notice (guise : Guise) {host : Host} {args : List String}
    {n : CommandLine.Notice}
    (h : CommandLine.ofArgs? (guise.arguments args) = .error (.notice n)) :
    (Course.notice n).Shows guise host (guise.arguments args) (call guise host args) := by
  have hcall : call guise host args
      = (Report.after [.print (n.text guise.name)] ⟨[], 0⟩).shownAt 0 := call_of_notice h
  rw [hcall]
  exact Report.Reads.single 0 0 (e := .print (n.text guise.name)) rfl

theorem shows_misuse (guise : Guise) {host : Host} {args : List String}
    {e : CommandLine.UsageError}
    (h : CommandLine.ofArgs? (guise.arguments args) = .error (.usage e)) :
    (Course.misuse e).Shows guise host (guise.arguments args) (call guise host args) := by
  have hcall : call guise host args = (Report.after
      [.complain (e.report (host.advice guise.name (guise.arguments args)))] ⟨[], 2⟩).shownAt 0 := by
    rw [call, h]
    rfl
  rw [hcall]
  exact Report.Reads.single 0 2
    (e := .complain (e.report (host.advice guise.name (guise.arguments args)))) rfl

theorem Takes.shows {guise : Guise} {host : Host} {args : List String} {course : Course}
    (h : Takes host.disk (guise.arguments args) course) :
    course.Shows guise host (guise.arguments args) (call guise host args) := by
  cases h with
  | notice h => exact shows_notice guise h
  | misuse h => exact shows_misuse guise h
  | refusal h hrefused =>
      rw [call_of_ofArgs? h]
      exact shows_refusal guise _ hrefused
  | preview h hplanned hdry =>
      rw [call_of_ofArgs? h]
      exact shows_preview guise _ hplanned hdry
  | audit h hplanned hreal =>
      rw [call_of_ofArgs? h]
      exact shows_audit guise _ hplanned hreal

end Gate

end AdvisoryGate
