import AdvisoryGate.Proofs.Course
import AdvisoryGate.Proofs.Insertion
import Mathlib.Data.List.Basic

/-!
# How much is told

Flags for more detail, in any number and spelling, put between the options
of a line. They leave the rest of the line alone (`ofArgs?_of_louder`), so
the story of the call stays the same and only what is shown of it changes.

Of what is shown everything but the records stays (`deeds_shownAt`), and
the records of a lower count are among those of a higher one. The headline
`verbosity_changes_records_only` says so of two calls at once, each with
more flags than a third.
-/

namespace AdvisoryGate

/-! ## Flags for more detail -/

namespace CommandLine

/-- The word asks for more detail so many times. -/
inductive Asks : Nat → String → Prop
  | named : Asks 1 "--verbose"
  | letters (n : Nat) : Asks (n + 1) (String.ofList ('-' :: List.replicate (n + 1) 'v'))

/-- The second line is the first one with words put between its options that
ask for more detail so many times. -/
inductive Louder : Nat → List String → List String → Prop
  | same (words : List String) : Louder 0 words words
  | insert {n k : Nat} {words before after : List String} {items : List Item} {w : String} :
      Louder n words (before ++ after) → Row before items → Asks k w →
        Louder (n + k) words (before ++ w :: after)

/-- The line, with more detail asked for so many times. -/
def louder (n : Nat) (c : CommandLine) : CommandLine :=
  { c with verbosity := min (c.verbosity + n) maxVerbosity }

theorem louder_louder (n k : Nat) (c : CommandLine) :
    louder k (louder n c) = louder (n + k) c := by
  have h : min (min (c.verbosity + n) maxVerbosity + k) maxVerbosity
      = min (c.verbosity + (n + k)) maxVerbosity := by omega
  rw [louder, louder, louder]
  exact congrArg (fun v => { c with verbosity := v }) h

/-- No setting sees the count, and the count does not see where it grows. -/
theorem commutes_louder (n : Nat) (s : Setting) : Commutes (louder n) s := by
  cases s with
  | valued v =>
      cases v with
      | config => exact commutes_config (fun _ => rfl) fun _ _ => rfl
      | profile => exact commutes_profile (fun _ => rfl) fun _ _ => rfl
      | ignore => exact fun _ _ => rfl
  | switch s =>
      cases s with
      | dryRun => exact commutes_dryRun (fun _ => rfl) fun _ => rfl
      | verbose =>
          intro c _
          have h : louder 1 (louder n c) = louder n (louder 1 c) := by
            rw [louder_louder, louder_louder, Nat.add_comm]
          exact congrArg Except.ok h
      | help | version => exact fun _ _ => rfl

theorem respects_louder (n : Nat) (words : List String) : Respects (louder n) words :=
  fun _ _ s _ => commutes_louder n s

/-- The count of an accepted line is one that the counter can show. -/
theorem louder_zero {words : List String} {c : CommandLine} (hc : ofArgs? words = .ok c) :
    louder 0 c = c :=
  ofArgs?_eq_of_fixed rfl (respects_louder 0 words) hc

theorem foldlM_enter_verbose (full : Bool) : ∀ (n : Nat) (c : CommandLine),
    (List.replicate (n + 1) (Item.flag .verbose full)).foldlM enter c = .ok (louder (n + 1) c)
  | 0, _ => rfl
  | n + 1, c => by
      have hfirst : c.enter (.flag .verbose full) = .ok (louder 1 c) := rfl
      rw [List.replicate_succ, List.foldlM_cons, hfirst]
      show (List.replicate (n + 1) (Item.flag .verbose full)).foldlM enter (louder 1 c) = _
      rw [foldlM_enter_verbose full n, louder_louder, Nat.add_comm 1]

theorem Asks.exists_row {k : Nat} {w : String} (h : Asks k w) :
    ∃ items, Row [w] items ∧ ∀ c, items.foldlM enter c = .ok (louder k c) := by
  cases h with
  | named => exact ⟨_, .named .verbose .nil, foldlM_enter_verbose true 0⟩
  | letters n =>
      have hletters : (List.replicate (n + 1) Switch.verbose).map Switch.letter?
          = (List.replicate (n + 1) 'v').map some := by
        rw [List.map_replicate, List.map_replicate]
        rfl
      have hitems : (List.replicate (n + 1) Switch.verbose).map (Item.flag · false) ++ []
          = List.replicate (n + 1) (Item.flag .verbose false) := by
        rw [List.map_replicate, List.append_nil]
      have hne : List.replicate (n + 1) 'v' ≠ [] := List.cons_ne_nil _ _
      refine ⟨_, .letters _ _ hne hletters .nil, ?_⟩
      rw [hitems]
      exact foldlM_enter_verbose false n

/-- Flags for more detail are counted, wherever they are put, and nothing
else comes of them. -/
theorem ofArgs?_of_louder {n : Nat} {words words' : List String} {c : CommandLine}
    (h : Louder n words words') (hc : ofArgs? words = .ok c) :
    ofArgs? words' = .ok (louder n c) := by
  induction h with
  | same => rw [louder_zero hc, hc]
  | insert _ hrow hasks ih =>
      rename_i n k words before after items w _
      have hline := ih hc
      obtain ⟨c₀, hc₀, -⟩ := (finish_row_ok_iff hrow after {}).mp hline
      obtain ⟨added, hadded, henter⟩ := hasks.exists_row
      have hinsert := ofArgs?_insert hrow hc₀ hadded (henter c₀) (respects_louder k after)
      rw [hline] at hinsert
      rw [← louder_louder]
      exact hinsert

end CommandLine

/-! ## What is shown of a report -/

namespace Report

/-- The events that are no records. -/
def deeds (r : Report) : List Event := r.events.filter (·.record?.isNone)

/-- What is written to standard error besides the records. -/
def ownErr (r : Report) : String := String.join (r.deeds.map (·.err))

theorem deeds_shownAt (verbosity : Nat) (r : Report) : (r.shownAt verbosity).deeds = r.deeds := by
  have hkept : ∀ e ∈ r.events,
      (e.record?.isNone && e.isShown verbosity) = e.record?.isNone := by
    rintro (r | text | text | ⟨program, args, child⟩) _ <;> rfl
  rw [deeds, deeds, shownAt, List.filter_filter]
  exact List.filter_congr hkept

theorem stdout_eq (r : Report) : r.stdout = String.join (r.deeds.map (·.out)) := by
  obtain ⟨events, exitCode⟩ := r
  show String.join (events.map (·.out))
    = String.join ((events.filter (·.record?.isNone)).map (·.out))
  induction events with
  | nil => rfl
  | cons e events ih =>
      rw [List.map_cons, String.join_cons, ih]
      cases e with
      | log record => exact String.empty_append
      | print | complain | ran => exact (String.join_cons ..).symm

theorem calls_eq (r : Report) : r.calls = r.deeds.filterMap (·.call?) := by
  rw [calls, deeds, List.filterMap_filter]
  congr 1
  funext e
  cases e <;> rfl

/-- What a count shows, a higher one shows too, in the same order. -/
theorem events_shownAt_sublist {v w : Nat} (h : v ≤ w) (r : Report) :
    (r.shownAt v).events.Sublist (r.shownAt w).events := by
  refine List.monotone_filter_right r.events fun e he => ?_
  cases e with
  | log record =>
      have hv : record.level.threshold ≤ v := of_decide_eq_true he
      exact decide_eq_true (Nat.le_trans hv h)
  | print | complain | ran => rfl

/-- From two flags on everything is shown. -/
theorem shownAt_of_two_le {v : Nat} (h : 2 ≤ v) (r : Report) : r.shownAt v = r := by
  have hall : ∀ e ∈ r.events, e.isShown v = true := by
    intro e _
    cases e with
    | log record =>
        have htwo : record.level.threshold ≤ 2 := by cases record.level <;> decide
        exact decide_eq_true (Nat.le_trans htwo h)
    | print | complain | ran => rfl
  rw [shownAt, List.filter_eq_self.mpr hall]

end Report

namespace Gate

open CommandLine (ofArgs? Louder louder)

/-- The flags take no part in what happens. -/
theorem story_louder (host : Host) (n : Nat) (c : CommandLine) :
    story host (louder n c) = story host c := rfl

theorem call_of_louder {guise : Guise} {host : Host} {args args' : List String} {n : Nat}
    {c : CommandLine} (hc : ofArgs? (guise.arguments args) = .ok c)
    (h : Louder n (guise.arguments args) (guise.arguments args')) :
    call guise host args' = (story host c).shownAt (louder n c).verbosity := by
  rw [call_of_ofArgs? (CommandLine.ofArgs?_of_louder h hc), story_louder]

/-- The reports differ in nothing but their records. -/
structure AgreeUpToRecords (r r' : Report) : Prop where
  exitCode : r.exitCode = r'.exitCode
  stdout : r.stdout = r'.stdout
  calls : r.calls = r'.calls
  ownErr : r.ownErr = r'.ownErr

theorem agreeUpToRecords_shownAt (r : Report) (v w : Nat) :
    AgreeUpToRecords (r.shownAt v) (r.shownAt w) where
  exitCode := rfl
  stdout := by rw [Report.stdout_eq, Report.stdout_eq, Report.deeds_shownAt, Report.deeds_shownAt]
  calls := by rw [Report.calls_eq, Report.calls_eq, Report.deeds_shownAt, Report.deeds_shownAt]
  ownErr := by
    rw [Report.ownErr, Report.ownErr, Report.deeds_shownAt, Report.deeds_shownAt]

/-- **Verbosity changes records only.** Take an accepted line and put flags
for more detail between its options, once fewer and once more of them. Both
calls end with the same code, run the same commands and write the same, but
for the records; those of the first call are among those of the second. If
two flags are there in the first, the second shows nothing new. -/
theorem verbosity_changes_records_only (guise : Guise) (host : Host)
    {args fewer more : List String} {n m : Nat} {c : CommandLine}
    (hc : ofArgs? (guise.arguments args) = .ok c)
    (hfewer : Louder n (guise.arguments args) (guise.arguments fewer))
    (hmore : Louder m (guise.arguments args) (guise.arguments more)) (hle : n ≤ m) :
    AgreeUpToRecords (call guise host fewer) (call guise host more)
      ∧ (call guise host fewer).records.Sublist (call guise host more).records
      ∧ (2 ≤ c.verbosity + n → call guise host fewer = call guise host more) := by
  have hcounts : (louder n c).verbosity ≤ (louder m c).verbosity := by
    show min (c.verbosity + n) _ ≤ min (c.verbosity + m) _
    omega
  rw [call_of_louder hc hfewer, call_of_louder hc hmore]
  refine ⟨agreeUpToRecords_shownAt _ _ _,
    (Report.events_shownAt_sublist hcounts _).filterMap _, fun htwo => ?_⟩
  have hshown : 2 ≤ (louder n c).verbosity := by
    show 2 ≤ min (c.verbosity + n) 255
    omega
  rw [Report.shownAt_of_two_le hshown, Report.shownAt_of_two_le (Nat.le_trans hshown hcounts)]

/-- With two flags, and with more of them than the counter has numbers. -/
theorem verbosity_changes_records_only_beyond_the_counter :
    let host : Host := ⟨.bare, fun _ _ => .ended "" "found" (.code 1), CommandLine.plainAdvice⟩
    let many := String.ofList ('-' :: List.replicate 300 'v')
    ofArgs? ["--profile", "none", "-v"] = .ok { profile := some "none", verbosity := 1 }
      ∧ Louder 1 ["--profile", "none", "-v"] ["--profile", "none", "--verbose", "-v"]
      ∧ Louder 300 ["--profile", "none", "-v"] [many, "--profile", "none", "-v"]
      ∧ AgreeUpToRecords (call .standalone host ["--profile", "none", "--verbose", "-v"])
        (call .standalone host [many, "--profile", "none", "-v"])
      ∧ (call .standalone host ["--profile", "none", "--verbose", "-v"]).records.Sublist
        (call .standalone host [many, "--profile", "none", "-v"]).records
      ∧ call .standalone host ["--profile", "none", "--verbose", "-v"]
        = call .standalone host [many, "--profile", "none", "-v"] := by
  intro host many
  have hline : ofArgs? (Guise.standalone.arguments ["--profile", "none", "-v"])
      = .ok { profile := some "none", verbosity := 1 } := by decide +kernel
  have hrow : CommandLine.Row ["--profile", "none"] [.value .profile "none"] :=
    .apart .profile "none" (Or.inl (by decide)) .nil
  have hbehind : Louder 0 ["--profile", "none", "-v"] (["--profile", "none"] ++ ["-v"]) := .same _
  have hfront : Louder 0 ["--profile", "none", "-v"] ([] ++ ["--profile", "none", "-v"]) := .same _
  have hfewer : Louder 1 ["--profile", "none", "-v"] ["--profile", "none", "--verbose", "-v"] :=
    hbehind.insert hrow .named
  have hmore : Louder 300 ["--profile", "none", "-v"] [many, "--profile", "none", "-v"] :=
    hfront.insert .nil (.letters 299)
  obtain ⟨hagree, hrecords, hsame⟩ :=
    verbosity_changes_records_only .standalone host hline hfewer hmore (by decide)
  exact ⟨hline, hfewer, hmore, hagree, hrecords, hsame (by decide)⟩

end Gate

end AdvisoryGate
