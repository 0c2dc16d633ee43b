import AdvisoryGate.Proofs.CommandLine
import AdvisoryGate.Proofs.Course
import Mathlib.Data.List.Induction

/-!
# The order of options

What a row of options comes to, whatever their order and spelling. `Says`
reads it off the options as lists and counts; `gather` is the command line
made of these. As long as nothing that is allowed once is there twice,
entering the options one after the other gives just this
(`foldlM_enter_gather`), and otherwise the line is refused with the name of
something that is (`foldlM_enter_repeated`). Both are by induction from the
last option, since what has been entered before it is then known.

The headline `options_in_any_order` says this of whole calls.
-/

namespace AdvisoryGate

namespace CommandLine

/-! ## What options say -/

def Item.setting : Item → Setting
  | .value v _ => .valued v
  | .flag s _ => .switch s

/-- The option is no question about the gate. -/
def Item.IsOption (i : Item) : Prop := i.setting ≠ .switch .help ∧ i.setting ≠ .switch .version

instance (i : Item) : Decidable i.IsOption := inferInstanceAs (Decidable (_ ∧ _))

/-- The value that an option gives to a setting. -/
def Item.text? (v : Valued) : Item → Option String
  | .value w text => if w = v then some text else none
  | .flag _ _ => none

/-- The values that are given to a setting, in order. -/
def texts (v : Valued) (items : List Item) : List String := items.filterMap (·.text? v)

/-- How often something is set. -/
def times (s : Setting) (items : List Item) : Nat := items.countP (·.setting = s)

/-- The setting is allowed once. -/
def Setting.isSingle : Setting → Bool
  | .valued .config | .valued .profile | .switch .dryRun => true
  | _ => false

/-- Nothing that is allowed once is set twice. -/
def AtMostOnce (items : List Item) : Prop :=
  ∀ s : Setting, s.isSingle = true → times s items ≤ 1

/-- The command line that options come to, whatever their order. -/
def gather (items : List Item) : CommandLine where
  config := (texts .config items).head?
  profile := (texts .profile items).head?
  ignore := texts .ignore items
  dryRun := decide (0 < times (.switch .dryRun) items)
  verbosity := min (times (.switch .verbose) items) maxVerbosity

/-- The options say this and nothing else. -/
structure Says (items : List Item) (config profile : Option String) (ignore : List String)
    (dryRun : Bool) (count : Nat) : Prop where
  config : texts .config items = config.toList
  profile : texts .profile items = profile.toList
  ignore : texts .ignore items = ignore
  dryRun : times (.switch .dryRun) items = dryRun.toNat
  verbose : times (.switch .verbose) items = count
  isOption : ∀ i ∈ items, i.IsOption

theorem texts_concat (v : Valued) (items : List Item) (i : Item) :
    texts v (items ++ [i]) = texts v items ++ (i.text? v).toList := by
  rw [texts, texts, List.filterMap_append, List.filterMap_cons, List.filterMap_nil]
  cases i.text? v <;> rfl

theorem times_concat (s : Setting) (items : List Item) (i : Item) :
    times s (items ++ [i]) = times s items + if i.setting = s then 1 else 0 := by
  simp [times, List.countP_append, List.countP_cons]

theorem length_texts (v : Valued) (items : List Item) :
    (texts v items).length = times (.valued v) items := by
  induction items using List.reverseRecOn with
  | nil => rfl
  | append_singleton items i ih =>
      rw [texts_concat, times_concat, List.length_append, ih]
      cases i with
      | value w text => by_cases h : w = v <;> simp [Item.text?, Item.setting, h]
      | flag s full => rfl

theorem AtMostOnce.of_concat {items : List Item} {i : Item} (h : AtMostOnce (items ++ [i])) :
    AtMostOnce items := by
  intro s hs
  have hle := h s hs
  rw [times_concat] at hle
  omega

/-- What is allowed once and comes last has not been there before. -/
theorem AtMostOnce.times_eq_zero {items : List Item} {i : Item} (h : AtMostOnce (items ++ [i]))
    (hi : i.setting.isSingle = true) : times i.setting items = 0 := by
  have hle := h _ hi
  rw [times_concat, if_pos rfl] at hle
  omega

theorem texts_eq_nil {v : Valued} {items : List Item} (h : times (.valued v) items = 0) :
    texts v items = [] :=
  List.length_eq_zero_iff.mp ((length_texts v items).trans h)

/-! ## Entering options -/

/-- One more option: what has been gathered grows by it. -/
theorem enter_gather {items : List Item} {i : Item} (hi : i.IsOption)
    (honce : AtMostOnce (items ++ [i])) :
    (gather items).enter i = .ok (gather (items ++ [i])) := by
  cases i with
  | value v text =>
      cases v with
      | config =>
          have hnone := texts_eq_nil (honce.times_eq_zero rfl)
          simp [enter, store, gather, texts_concat, times_concat, Item.text?, Item.setting, hnone]
      | profile =>
          have hnone := texts_eq_nil (honce.times_eq_zero rfl)
          simp [enter, store, gather, texts_concat, times_concat, Item.text?, Item.setting, hnone]
      | ignore =>
          simp [enter, store, gather, texts_concat, times_concat, Item.text?, Item.setting]
  | flag s full =>
      cases s with
      | dryRun =>
          have hzero : times (.switch .dryRun) items = 0 := honce.times_eq_zero rfl
          simp [enter, obey, gather, texts_concat, times_concat, Item.text?, Item.setting, hzero]
      | verbose =>
          have hcount : min (min (times (.switch .verbose) items) maxVerbosity + 1) maxVerbosity
              = min (times (.switch .verbose) items + 1) maxVerbosity := by omega
          simp [enter, obey, gather, texts_concat, times_concat, Item.text?, Item.setting, hcount]
      | help => exact absurd rfl hi.1
      | version => exact absurd rfl hi.2

/-- One option too many: it is named. -/
theorem enter_gather_repeated {items : List Item} {i : Item}
    (hi : i.setting.isSingle = true) (hpos : 0 < times i.setting items) :
    (gather items).enter i = .error (.usage (.repeated i.setting)) := by
  cases i with
  | value v text =>
      have hsome : (texts v items).head?.isSome = true := by
        rw [List.isSome_head?, ← List.length_pos_iff, length_texts]
        exact hpos
      cases v with
      | config => exact if_pos hsome
      | profile => exact if_pos hsome
      | ignore => cases hi
  | flag s full =>
      cases s with
      | dryRun => exact if_pos (decide_eq_true hpos)
      | verbose | help | version => cases hi

theorem foldlM_enter_concat {items : List Item} {c : CommandLine}
    (h : items.foldlM enter {} = .ok c) (i : Item) :
    (items ++ [i]).foldlM enter {} = c.enter i := by
  rw [List.foldlM_append, h]
  show c.enter i >>= pure = _
  rw [bind_pure]

theorem foldlM_enter_gather {items : List Item} (hoptions : ∀ i ∈ items, i.IsOption)
    (honce : AtMostOnce items) : items.foldlM enter {} = .ok (gather items) := by
  induction items using List.reverseRecOn with
  | nil => rfl
  | append_singleton items i ih =>
      have hbefore := ih (fun j hj => hoptions j (List.mem_append_left _ hj)) honce.of_concat
      have hi := hoptions i (List.mem_append_right _ (List.mem_singleton_self i))
      rw [foldlM_enter_concat hbefore, enter_gather hi honce]

theorem foldlM_enter_repeated {items : List Item} (hoptions : ∀ i ∈ items, i.IsOption)
    (htwice : ¬ AtMostOnce items) : ∃ s : Setting, s.isSingle = true ∧ 2 ≤ times s items
      ∧ items.foldlM enter {} = .error (.usage (.repeated s)) := by
  induction items using List.reverseRecOn with
  | nil => exact absurd (fun _ _ => Nat.zero_le 1) htwice
  | append_singleton items i ih =>
      have hoptions' : ∀ j ∈ items, j.IsOption :=
        fun j hj => hoptions j (List.mem_append_left _ hj)
      by_cases honce : AtMostOnce items
      · -- The last option is the one too many.
        simp only [AtMostOnce, not_forall] at htwice
        obtain ⟨s, hs, hmany⟩ := htwice
        have hle := honce s hs
        rw [times_concat] at hmany
        have hsame : i.setting = s := by
          by_contra hne
          rw [if_neg hne] at hmany
          omega
        subst hsame
        rw [if_pos rfl] at hmany
        refine ⟨i.setting, hs, by rw [times_concat, if_pos rfl]; omega, ?_⟩
        rw [foldlM_enter_concat (foldlM_enter_gather hoptions' honce),
          enter_gather_repeated hs (by omega)]
      · obtain ⟨s, hs, hmany, hstop⟩ := ih hoptions' honce
        refine ⟨s, hs, by rw [times_concat]; omega, ?_⟩
        rw [List.foldlM_append, hstop]
        rfl

/-! ## What is said -/

section Said

variable {items : List Item} {config profile : Option String} {ignore : List String}
  {dryRun : Bool} {count : Nat}

theorem Says.atMostOnce (h : Says items config profile ignore dryRun count) :
    AtMostOnce items := by
  have hoption : ∀ text : Option String, text.toList.length ≤ 1 := by
    intro text
    cases text with
    | none => exact Nat.zero_le 1
    | some text => exact Nat.le_refl 1
  intro s hs
  match s, hs with
  | .valued .config, _ =>
      rw [← length_texts, h.config]
      exact hoption config
  | .valued .profile, _ =>
      rw [← length_texts, h.profile]
      exact hoption profile
  | .switch .dryRun, _ =>
      rw [h.dryRun]
      exact dryRun.toNat_le

theorem Says.gather_eq (h : Says items config profile ignore dryRun count) :
    gather items = ⟨config, profile, ignore, dryRun, min count maxVerbosity⟩ := by
  have hoption : ∀ text : Option String, text.toList.head? = text := by
    intro text
    cases text <;> rfl
  have hflag : decide (0 < dryRun.toNat) = dryRun := by cases dryRun <;> rfl
  rw [gather, h.config, h.profile, h.ignore, h.dryRun, h.verbose, hoption, hoption, hflag]

/-- No option is lost, whatever its place. -/
theorem ofArgs?_of_says {words : List String} (hrow : Row words items)
    (h : Says items config profile ignore dryRun count) :
    ofArgs? words = .ok ⟨config, profile, ignore, dryRun, min count maxVerbosity⟩ := by
  rw [ofArgs?_row hrow, foldlM_enter_gather h.isOption h.atMostOnce, h.gather_eq]

end Said

end CommandLine

/-! ## Calls -/

namespace Gate

open CommandLine (ofArgs? Row Item Setting Says times maxVerbosity)

/-- **Options can stand in any order.** A line made of options is accepted
and says what they say, none of them lost: of the values that are given,
only the ids have an order. Two such lines that say the same are answered
alike. But a line that sets twice what is allowed once is refused, whatever
the two values are, and nothing is run. -/
theorem options_in_any_order (guise : Guise) (host : Host) :
    (∀ (args : List String) (items : List Item) (config profile : Option String)
        (ignore : List String) (dryRun : Bool) (count : Nat),
      Row (guise.arguments args) items → Says items config profile ignore dryRun count →
        ofArgs? (guise.arguments args)
          = .ok ⟨config, profile, ignore, dryRun, min count maxVerbosity⟩)
    ∧ (∀ (args args' : List String) (items items' : List Item) (config profile : Option String)
        (ignore : List String) (dryRun : Bool) (count : Nat),
      Row (guise.arguments args) items → Says items config profile ignore dryRun count →
      Row (guise.arguments args') items' → Says items' config profile ignore dryRun count →
        call guise host args' = call guise host args)
    ∧ ∀ (args : List String) (items : List Item) (s : Setting),
      Row (guise.arguments args) items → (∀ i ∈ items, i.IsOption) →
      s.isSingle = true → 2 ≤ times s items →
        ∃ t : Setting, t.isSingle = true ∧ 2 ≤ times t items
          ∧ (call guise host args).Reads 2 [] ""
            ((CommandLine.UsageError.repeated t).report
              (host.advice guise.name (guise.arguments args))) := by
  refine ⟨fun _ _ _ _ _ _ _ hrow hsays => CommandLine.ofArgs?_of_says hrow hsays, ?_, ?_⟩
  · intro args args' items items' config profile ignore dryRun count hrow hsays hrow' hsays'
    rw [call_of_ofArgs? (CommandLine.ofArgs?_of_says hrow hsays),
      call_of_ofArgs? (CommandLine.ofArgs?_of_says hrow' hsays')]
  · intro args items s hrow hoptions hs hmany
    have htwice : ¬ CommandLine.AtMostOnce items := fun honce => by
      have hle := honce s hs
      omega
    obtain ⟨t, ht, hmany, hstop⟩ := CommandLine.foldlM_enter_repeated hoptions htwice
    exact ⟨t, ht, hmany, shows_misuse guise ((CommandLine.ofArgs?_row hrow).trans hstop)⟩

/-- Two spellings of one request, and one that names two profiles. -/
theorem options_in_any_order_of_two_spellings :
    let host : Host := ⟨.bare, fun _ _ => .ended "" "" (.code 0), CommandLine.plainAdvice⟩
    let spelled := ["audit-gate", "--ignore", "A", "-vv", "--config=c.toml", "--ignore=B"]
    let respelled := ["--config", "c.toml", "--ignore=A", "--verbose", "--ignore", "B", "-v"]
    ofArgs? (Guise.subcommand.arguments spelled) = .ok ⟨some "c.toml", none, ["A", "B"], false, 2⟩
      ∧ call .subcommand host respelled = call .subcommand host spelled
      ∧ ∃ t : Setting, t.isSingle = true
        ∧ 2 ≤ times t [.value .profile "none", .flag .verbose true, .value .profile "none"]
        ∧ (call .subcommand host ["--profile", "none", "--verbose", "--profile=none"]).Reads 2 [] ""
          ((CommandLine.UsageError.repeated t).report (host.advice Guise.subcommand.name
            ["--profile", "none", "--verbose", "--profile=none"])) := by
  intro host spelled respelled
  have hrow : Row (Guise.subcommand.arguments spelled)
      ([.value .ignore "A"] ++ ([.verbose, .verbose].map (Item.flag · false)
        ++ [.value .config "c.toml", .value .ignore "B"])) :=
    .apart .ignore "A" (Or.inl (by decide))
      (.letters ['v', 'v'] _ (by decide) rfl
        (.joined .config "c.toml" (.joined .ignore "B" .nil)))
  have hrow' : Row (Guise.subcommand.arguments respelled)
      (.value .config "c.toml" :: .value .ignore "A" :: .flag .verbose true :: .value .ignore "B"
        :: ([.verbose].map (Item.flag · false) ++ [])) :=
    .apart .config "c.toml" (Or.inl (by decide))
      (.joined .ignore "A" (.named .verbose (.apart .ignore "B" (Or.inl (by decide))
        (.letters ['v'] _ (by decide) rfl .nil))))
  have htwice : Row (Guise.subcommand.arguments
      ["--profile", "none", "--verbose", "--profile=none"])
      [.value .profile "none", .flag .verbose true, .value .profile "none"] :=
    .apart .profile "none" (Or.inl (by decide)) (.named .verbose (.joined .profile "none" .nil))
  obtain ⟨hread, hsame, hrefused⟩ := options_in_any_order .subcommand host
  exact ⟨hread _ _ (some "c.toml") none ["A", "B"] false 2 hrow ⟨rfl, rfl, rfl, rfl, rfl, by decide⟩,
    hsame _ _ _ _ (some "c.toml") none ["A", "B"] false 2 hrow
      ⟨rfl, rfl, rfl, rfl, rfl, by decide⟩ hrow' ⟨rfl, rfl, rfl, rfl, rfl, by decide⟩,
    hrefused _ _ (.valued .profile) htwice (by decide) rfl (by decide)⟩

end Gate

end AdvisoryGate
