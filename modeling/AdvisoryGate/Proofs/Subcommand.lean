import AdvisoryGate.Proofs.Arrangement

/-!
# The gate as a subcommand

As a subcommand the gate is given its own name in front of the words that
are meant for it. Once this name is dropped, nothing but the name under
which the gate tells about itself depends on how it was called: an accepted
line is the very same call (`Alike.accepted`), a help text differs in the
name of the program, and a usage error at most behind its first line.

`alike_of_arguments` says so of any two guises and any two lines that come
to the same words. The headline `subcommand_is_the_gate` is the case of the
dropped name, and says that it is dropped once and only in front.
-/

namespace AdvisoryGate.Gate

open CommandLine (ofArgs? Row Says Notice UsageError maxVerbosity)

/-! ## Texts that name the program -/

/-- The texts are the same, but where the one has a name the other has
another one. -/
def SameButName (name name' s s' : String) : Prop :=
  ∃ front back, s = front ++ name ++ back ∧ s' = front ++ name' ++ back

def firstLine (s : String) : List Char := s.toList.takeWhile (· ≠ '\n')

theorem sameButName_helpText (name name' : String) (full : Bool) :
    SameButName name name' (CommandLine.helpText name full) (CommandLine.helpText name' full) := by
  obtain ⟨options, hoptions⟩ : ∃ options, ∀ name, CommandLine.helpText name full
      = "Run cargo audit, ignoring advisories the maintainers have accepted\n\n"
        ++ ("Usage: " ++ name ++ " [OPTIONS]\n") ++ "\nOptions:\n" ++ options :=
    ⟨_, fun _ => rfl⟩
  refine ⟨"Run cargo audit, ignoring advisories the maintainers have accepted\n\n" ++ "Usage: ",
    " [OPTIONS]\n" ++ "\nOptions:\n" ++ options, ?_, ?_⟩
  · rw [hoptions]
    simp only [String.append_assoc]
  · rw [hoptions]
    simp only [String.append_assoc]

theorem firstLine_append (s t : String) : firstLine (s ++ "\n" ++ t) = firstLine s := by
  have hstop : ∀ cs : List Char, (cs ++ '\n' :: t.toList).takeWhile (· ≠ '\n')
      = cs.takeWhile (· ≠ '\n') := by
    intro cs
    induction cs with
    | nil => rfl
    | cons c cs ih =>
        rw [List.cons_append, List.takeWhile_cons, List.takeWhile_cons, ih]
  have htext : (s ++ "\n" ++ t).toList = s.toList ++ '\n' :: t.toList := by simp
  rw [firstLine, htext, hstop, firstLine]

/-- The first line of a usage error is about the words alone. -/
theorem firstLine_report (e : UsageError) (advice : String) :
    firstLine (e.report advice) = firstLine ("error: " ++ e.message) := firstLine_append _ _

/-! ## Two calls with the same words -/

/-- All that can differ between two calls that come to the same words, under
two names of the program. -/
structure Alike (words : List String) (name name' : String) (r r' : Report) : Prop where
  exitCode : r.exitCode = r'.exitCode
  calls : r.calls = r'.calls
  accepted : ∀ c, ofArgs? words = .ok c → r = r'
  stdout : r.stdout = r'.stdout
    ∨ (∃ full, ofArgs? words = .error (.notice (.help full)))
      ∧ SameButName name name' r.stdout r'.stdout
  stderr : r.stderr = r'.stderr
    ∨ (∃ e, ofArgs? words = .error (.usage e)) ∧ firstLine r.stderr = firstLine r'.stderr

theorem alike_of_arguments (host : Host) (guise guise' : Guise) {args args' words : List String}
    (h : guise.arguments args = words) (h' : guise'.arguments args' = words) :
    Alike words guise.name guise'.name (call guise host args) (call guise' host args') := by
  cases hc : ofArgs? words with
  | ok c =>
      have hsame : call guise host args = call guise' host args' := by
        rw [call, call, h, h', hc]
      exact ⟨by rw [hsame], by rw [hsame], fun _ _ => hsame, .inl (by rw [hsame]),
        .inl (by rw [hsame])⟩
  | error stop =>
      cases stop with
      | notice n =>
          have hreads : (call guise host args).Reads 0 [] (n.text guise.name) "" :=
            shows_notice guise (by rw [h, hc])
          have hreads' : (call guise' host args').Reads 0 [] (n.text guise'.name) "" :=
            shows_notice guise' (by rw [h', hc])
          refine ⟨hreads.exitCode.trans hreads'.exitCode.symm,
            hreads.calls.trans hreads'.calls.symm, fun c hok => ?_, ?_,
            .inl (hreads.stderr.trans hreads'.stderr.symm)⟩
          · rw [hc] at hok
            cases hok
          · rw [hreads.stdout, hreads'.stdout]
            cases n with
            | help full => exact .inr ⟨⟨full, hc⟩, sameButName_helpText _ _ full⟩
            | version => exact .inl rfl
      | usage e =>
          have hreads : (call guise host args).Reads 2 [] "" (e.report _) :=
            shows_misuse guise (by rw [h, hc])
          have hreads' : (call guise' host args').Reads 2 [] "" (e.report _) :=
            shows_misuse guise' (by rw [h', hc])
          refine ⟨hreads.exitCode.trans hreads'.exitCode.symm,
            hreads.calls.trans hreads'.calls.symm, fun c hok => ?_,
            .inl (hreads.stdout.trans hreads'.stdout.symm), .inr ⟨⟨e, hc⟩, ?_⟩⟩
          · rw [hc] at hok
            cases hok
          · rw [hreads.stderr, hreads'.stderr, firstLine_report, firstLine_report]

/-! ## The dropped name -/

theorem arguments_of_head_ne {args : List String} (h : args.head? ≠ some "audit-gate") :
    Guise.subcommand.arguments args = args := by
  unfold Guise.arguments
  split
  · exact absurd rfl h
  · rfl

/-- The gate's own name is a positional argument, and there are none. -/
theorem ofArgs?_ownName (args : List String) :
    ofArgs? ("audit-gate" :: args) = .error (.usage (.unexpectedArgument "audit-gate")) := by
  have hword : CommandLine.Word.ofText "audit-gate" = .plain "audit-gate" := by decide +kernel
  rw [ofArgs?, CommandLine.Progress.finish_cons _ _ hword]
  rfl

/-- **The subcommand is the gate.** With its own name in front of a line, or
with a line that does not begin with the name, the subcommand does what the
gate does with the line: it ends with the same code, runs the same commands
and writes the same, but for the name in the help and what follows the first
line of a usage error. Only one name is dropped, and only in front: a second
one is refused like any positional argument, and as the value of an option
the name is kept like any other. -/
theorem subcommand_is_the_gate (host : Host) (args : List String) :
    Alike args "cargo-audit-gate" "audit-gate"
        (call .subcommand host ("audit-gate" :: args)) (call .standalone host args)
      ∧ (args.head? ≠ some "audit-gate" →
        Alike args "cargo-audit-gate" "audit-gate"
          (call .subcommand host args) (call .standalone host args))
      ∧ (∃ stderr, (call .subcommand host ("audit-gate" :: "audit-gate" :: args)).Reads
          2 [] "" stderr
        ∧ firstLine stderr = "error: unexpected argument 'audit-gate' found".toList)
      ∧ ∀ items config profile ignore dryRun count, Row args items →
        Says items config profile ignore dryRun count →
          call .subcommand host ("audit-gate" :: args)
            = run host ⟨config, profile, ignore, dryRun, min count maxVerbosity⟩ := by
  refine ⟨alike_of_arguments host .subcommand .standalone rfl rfl,
    fun hhead => alike_of_arguments host .subcommand .standalone (arguments_of_head_ne hhead) rfl,
    ?_, ?_⟩
  · refine ⟨_, shows_misuse .subcommand (ofArgs?_ownName args), ?_⟩
    rw [firstLine_report]
    decide +kernel
  · intro items config profile ignore dryRun count hrow hsays
    have hline : ofArgs? (Guise.subcommand.arguments ("audit-gate" :: args))
        = .ok ⟨config, profile, ignore, dryRun, min count maxVerbosity⟩ :=
      CommandLine.ofArgs?_of_says hrow hsays
    rw [call, hline]

/-- The name as a profile, as a path and as an id. -/
theorem subcommand_is_the_gate_named_everywhere :
    let host : Host := ⟨.bare, fun _ _ => .ended "" "" (.code 0), CommandLine.plainAdvice⟩
    let args := ["--profile", "audit-gate", "--config=audit-gate", "--ignore", "audit-gate"]
    args.head? ≠ some "audit-gate"
      ∧ call .subcommand host args = call .standalone host args
      ∧ call .subcommand host ("audit-gate" :: args)
        = run host ⟨some "audit-gate", some "audit-gate", ["audit-gate"], false, 0⟩ := by
  intro host args
  have hhead : args.head? ≠ some "audit-gate" := by decide
  have hrow : Row args
      [.value .profile "audit-gate", .value .config "audit-gate", .value .ignore "audit-gate"] :=
    .apart .profile "audit-gate" (.inl (by decide))
      (.joined .config "audit-gate" (.apart .ignore "audit-gate" (.inl (by decide)) .nil))
  have hsays : Says
      [.value .profile "audit-gate", .value .config "audit-gate", .value .ignore "audit-gate"]
      (some "audit-gate") (some "audit-gate") ["audit-gate"] false 0 :=
    ⟨rfl, rfl, rfl, rfl, rfl, by decide⟩
  obtain ⟨-, halike, -, hkept⟩ := subcommand_is_the_gate host args
  exact ⟨hhead, (halike hhead).accepted _ (CommandLine.ofArgs?_of_says hrow hsays),
    hkept _ _ _ _ _ _ hrow hsays⟩

end AdvisoryGate.Gate
