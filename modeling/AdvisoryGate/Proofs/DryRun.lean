import AdvisoryGate.Proofs.Course
import AdvisoryGate.Proofs.Insertion

/-!
# A dry run beside the run

Two calls on one host, alike but for `--dry-run`. The flag takes no part in
what becomes of the configuration (`Refused.withDryRun`,
`Planned.withDryRun`), so both calls are refused for the same reason or
both have the same plan, and by `Takes.shows` the courses they take then
say what is seen of them.

The headline is `dry_run_shows_the_run`: the dry run is refused exactly as
the run is, and otherwise prints the command that the run has executed.
-/

namespace AdvisoryGate.Gate

open CommandLine (ofArgs? Row)

/-! ## The flag and the configuration -/

variable {d : Disk} {c : CommandLine}

theorem Refused.withDryRun {e : Error} (h : Refused d c e) (b : Bool) :
    Refused d (c.withDryRun b) e := by
  cases h with
  | unread hsource hread => exact .unread hsource hread
  | unparsed htext hparse => exact .unparsed htext hparse
  | unresolved htext hparse hresolve => exact .unresolved htext hparse hresolve

theorem Planned.withDryRun {p : Plan} (h : Planned d c p) (b : Bool) :
    Planned d (c.withDryRun b) p := by
  cases h with
  | intro htext hparse hresolve => exact .intro htext hparse hresolve

/-! ## Two calls -/

/-- Whatever comes of the child, it is the one child of the run. -/
theorem ShowsRun.calls {inv : Invocation} {before : String} {r : Report} {child : Child}
    (h : ShowsRun c inv before r child) : r.calls = [(inv.program, inv.args)] := by
  cases child with
  | notStarted cause => exact Report.Reads.calls h
  | lost out err cause => exact Report.Reads.calls h
  | ended out err exit => exact h.1.calls

variable {guise : Guise} {host : Host} {args args' : List String}

theorem refusal_of_both {e : Error} (h : ofArgs? (guise.arguments args) = .ok c)
    (h' : ofArgs? (guise.arguments args') = .ok (c.withDryRun true))
    (hrefused : Refused host.disk c e) :
    ∃ stderr, (call guise host args).Reads 2 [] "" stderr
      ∧ (call guise host args').Reads 2 [] "" stderr :=
  ⟨_, (Takes.refusal h hrefused).shows,
    (Takes.refusal h' (hrefused.withDryRun true)).shows⟩

theorem plan_of_both {p : Plan} (h : ofArgs? (guise.arguments args) = .ok c)
    (h' : ofArgs? (guise.arguments args') = .ok (c.withDryRun true))
    (hreal : c.dryRun = false) (hplanned : Planned host.disk c p) :
    (call guise host args).calls = [(p.invocation.program, p.invocation.args)]
      ∧ ∃ stderr,
        (call guise host args').Reads 0 [] (p.invocation.display ++ "\n") stderr := by
  have hrun : ShowsRun c p.invocation _ (call guise host args) _ :=
    (Takes.audit h hplanned hreal).shows
  exact ⟨hrun.calls, _,
    (Takes.preview h' (hplanned.withDryRun true) rfl).shows⟩

/-- **A dry run shows the run.** Put `--dry-run` between two options of an
accepted line that lacks it. If the line is refused for its configuration,
so is the new one, with the same code and the same texts. Otherwise the new
one runs nothing, answers 0 and prints the very command, with all its
arguments, that the old one has run. -/
theorem dry_run_shows_the_run (host : Host) {before after : List String}
    {items : List CommandLine.Item}
    (hargs : guise.arguments args = before ++ after)
    (hargs' : guise.arguments args' = before ++ "--dry-run" :: after)
    (hrow : Row before items) (hline : ofArgs? (before ++ after) = .ok c)
    (hnot : "--dry-run" ∉ before ++ after) :
    (∀ e, Refused host.disk c e →
        (call guise host args).exitCode = 2 ∧ (call guise host args').exitCode = 2
          ∧ (call guise host args').stdout = (call guise host args).stdout
          ∧ (call guise host args').stderr = (call guise host args).stderr
          ∧ (call guise host args').calls = [])
      ∧ ((¬ ∃ e, Refused host.disk c e) →
        (call guise host args').calls = [] ∧ (call guise host args').exitCode = 0
          ∧ ∃ inv : Invocation, (call guise host args').stdout = inv.display ++ "\n"
            ∧ (call guise host args).calls = [(inv.program, inv.args)]) := by
  obtain ⟨hreal, hline'⟩ := CommandLine.ofArgs?_insert_dryRun hrow hline hnot
  rw [← hargs] at hline
  rw [← hargs'] at hline'
  constructor
  · intro e hrefused
    obtain ⟨stderr, hrun, hdry⟩ := refusal_of_both hline hline' hrefused
    exact ⟨hrun.exitCode, hdry.exitCode, hdry.stdout.trans hrun.stdout.symm,
      hdry.stderr.trans hrun.stderr.symm, hdry.calls⟩
  · intro hfine
    obtain ⟨p, hplanned⟩ := (refused_or_planned host.disk c).resolve_left hfine
    obtain ⟨hcalls, stderr, hdry⟩ := plan_of_both hline hline' hreal hplanned
    exact ⟨hdry.calls, hdry.exitCode, p.invocation, hdry.stdout, hcalls⟩

/-- A directory that holds no configuration, and an auditor that finds
nothing. -/
def bareHost : Host where
  disk := .bare
  run _ _ := .ended "" "" (.code 0)
  advice := CommandLine.plainAdvice

/-- The flag is put behind the second word of an option. -/
theorem dry_run_shows_the_run_of_a_profile :
    Row ["--profile", "none"] [.value .profile "none"]
      ∧ ofArgs? ["--profile", "none", "-v"] = .ok { profile := some "none", verbosity := 1 }
      ∧ (¬ ∃ e, Refused bareHost.disk { profile := some "none", verbosity := 1 } e)
      ∧ (call .standalone bareHost ["--profile", "none", "--dry-run", "-v"]).calls = []
      ∧ ∃ inv : Invocation,
        (call .standalone bareHost ["--profile", "none", "--dry-run", "-v"]).stdout
            = inv.display ++ "\n"
          ∧ (call .standalone bareHost ["--profile", "none", "-v"]).calls
            = [(inv.program, inv.args)] := by
  have hrow : Row ["--profile", "none"] [.value .profile "none"] :=
    .apart .profile "none" (Or.inl (by decide)) .nil
  have hline : ofArgs? ["--profile", "none", "-v"]
      = .ok { profile := some "none", verbosity := 1 } := by decide +kernel
  have hparse : Plan.configOf "" = .ok {} := by decide +kernel
  have hplanned : Planned bareHost.disk { profile := some "none", verbosity := 1 }
      ⟨"none", ⟨"cargo", ["audit"], ⟨[]⟩⟩⟩ :=
    .intro (.absent rfl (by decide +kernel)) hparse (by decide +kernel)
  have hfine : ¬ ∃ e, Refused bareHost.disk { profile := some "none", verbosity := 1 } e :=
    fun ⟨e, he⟩ => he.not_planned _ hplanned
  have hargs : Guise.standalone.arguments ["--profile", "none", "-v"]
      = ["--profile", "none"] ++ ["-v"] := rfl
  have hargs' : Guise.standalone.arguments ["--profile", "none", "--dry-run", "-v"]
      = ["--profile", "none"] ++ "--dry-run" :: ["-v"] := rfl
  obtain ⟨hcalls, -, hshown⟩ :=
    (dry_run_shows_the_run bareHost hargs hargs' hrow hline (by decide)).2 hfine
  exact ⟨hrow, hline, hfine, hcalls, hshown⟩

end AdvisoryGate.Gate
