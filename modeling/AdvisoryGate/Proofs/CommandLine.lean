import AdvisoryGate.CommandLine
import AdvisoryGate.Proofs.Lemmas

/-!
# Which command lines are accepted

How options are written, apart from how they are read: `Row` relates words
to the options that they spell, `Line` adds the two dashes that may stand
at the end. The reading is `CommandLine.Progress`; what it does to an
option that is complete is `enter`.

The headline is `ofArgs?_ok_iff`: the accepted command lines are exactly
the written ones whose options can be entered one after the other. One half
of it reads a row word by word and works for any words behind it
(`finish_row_ok_iff`), since an option that is still held changes nothing
about what follows (`finish_settled_ok_iff`); the other half recovers the
row from a reading that succeeds (`exists_line`). Of a row that stands
alone the reading says no more and no less than entering its options, also
where it fails (`ofArgs?_row`).
-/

namespace AdvisoryGate.CommandLine

/-! ## How options are written -/

def Valued.name : Valued → String
  | .config => "config"
  | .profile => "profile"
  | .ignore => "ignore"

def Switch.name : Switch → String
  | .dryRun => "dry-run"
  | .verbose => "verbose"
  | .help => "help"
  | .version => "version"

def Switch.letter? : Switch → Option Char
  | .dryRun => none
  | .verbose => some 'v'
  | .help => some 'h'
  | .version => some 'V'

def Setting.name : Setting → String
  | .valued v => v.name
  | .switch s => s.name

/-- A word that can be a value: it begins with no dash, or is a lone one. -/
def IsPlain (text : String) : Prop := text.toList.head? ≠ some '-' ∨ text = "-"

/-- One option of a command line. -/
inductive Item
  | value (v : Valued) (text : String)
  /-- A flag; `full` says whether it is written with its long name. -/
  | flag (s : Switch) (full : Bool)
  deriving DecidableEq, Repr

/-- Words that spell whole options. -/
inductive Row : List String → List Item → Prop
  | nil : Row [] []
  | joined {words items} (v : Valued) (text : String) :
      Row words items →
        Row (("--" ++ v.name ++ "=" ++ text) :: words) (.value v text :: items)
  | apart {words items} (v : Valued) (text : String) :
      IsPlain text → Row words items →
        Row (("--" ++ v.name) :: text :: words) (.value v text :: items)
  | named {words items} (s : Switch) :
      Row words items → Row (("--" ++ s.name) :: words) (.flag s true :: items)
  | letters {words items} (cs : List Char) (ss : List Switch) :
      cs ≠ [] → ss.map Switch.letter? = cs.map some → Row words items →
        Row (String.ofList ('-' :: cs) :: words) (ss.map (.flag · false) ++ items)

/-- The words of a whole command line: options, and perhaps two dashes
behind them. -/
def Line (words : List String) (items : List Item) : Prop :=
  ∃ row, Row row items ∧ (words = row ∨ words = row ++ ["--"])

/-- Enter one option. -/
def enter (c : CommandLine) : Item → Except Stop CommandLine
  | .value v text => c.store v text
  | .flag s full => c.obey full s

theorem Row.append {ws ws' : List String} {is is' : List Item} (h : Row ws is)
    (h' : Row ws' is') : Row (ws ++ ws') (is ++ is') := by
  induction h with
  | nil => exact h'
  | joined v text _ ih => exact .joined v text ih
  | apart v text hp _ ih => exact .apart v text hp ih
  | named s _ ih => exact .named s ih
  | letters cs ss hne hss _ ih =>
      rw [List.cons_append, List.append_assoc]
      exact .letters cs ss hne hss ih

theorem Row.line {ws ws' : List String} {is is' : List Item} (h : Row ws is)
    (h' : Line ws' is') : Line (ws ++ ws') (is ++ is') := by
  obtain ⟨row, hrow, rfl | rfl⟩ := h'
  · exact ⟨_, h.append hrow, Or.inl rfl⟩
  · exact ⟨_, h.append hrow, Or.inr (List.append_assoc ..).symm⟩

theorem Row.line_self {ws : List String} {is : List Item} (h : Row ws is) : Line ws is :=
  ⟨ws, h, Or.inl rfl⟩

/-! ## Names, letters and forms of words -/

theorem Setting.ofName?_eq_some_iff {name : String} {s : Setting} :
    ofName? name = some s ↔ name = s.name := by
  constructor
  · intro h
    unfold ofName? at h
    split at h <;> cases h <;> rfl
  · rintro rfl
    rcases s with v | s
    · cases v <;> rfl
    · cases s <;> rfl

theorem Switch.ofLetter?_eq_some_iff {c : Char} {s : Switch} :
    ofLetter? c = some s ↔ s.letter? = some c := by
  constructor
  · intro h
    unfold ofLetter? at h
    split at h <;> cases h <;> rfl
  · intro h
    cases s <;> cases h <;> rfl

theorem Word.ofText_apart (v : Valued) : ofText ("--" ++ v.name) = .long v.name none := by
  cases v <;> decide +kernel

theorem Word.ofText_named (s : Switch) : ofText ("--" ++ s.name) = .long s.name none := by
  cases s <;> decide +kernel

theorem Word.ofText_joined (v : Valued) (text : String) :
    ofText ("--" ++ v.name ++ "=" ++ text) = .long v.name (some text) := by
  cases v <;> simp [ofText, ofLong, Valued.name]

theorem Word.ofText_plain {text : String} (h : IsPlain text) : ofText text = .plain text := by
  rcases h with h | rfl
  · rw [ofText]
    split
    all_goals (rename_i heq; first | rfl | (rw [heq] at h; exact absurd rfl h))
  · rfl

theorem Word.ofText_letters {cs : List Char} {ss : List Switch} (hne : cs ≠ [])
    (hss : ss.map Switch.letter? = cs.map some) :
    ofText (String.ofList ('-' :: cs)) = .short cs := by
  cases cs with
  | nil => exact absurd rfl hne
  | cons c cs =>
      cases ss with
      | nil => cases hss
      | cons s ss =>
          -- No flag has the dash for its letter, so this is not a long name.
          have hc : c ≠ '-' := by
            rw [List.map_cons, List.map_cons, List.cons.injEq] at hss
            rintro rfl
            cases s <;> exact absurd hss.1 (by decide)
          rw [ofText, String.toList_ofList]
          split
          · rename_i heq; injection heq with _ h; injection h with h _; exact absurd h hc
          · rename_i heq; injection heq with _ h; injection h with h _; exact absurd h hc
          · rename_i heq; cases heq
          · rename_i heq; injection heq with _ h; rw [h]
          · rename_i h1 h2 h3 h4; exact absurd rfl (h4 _)

/-- How a word of a form is written. -/
def Word.write : Word → String
  | .escape => "--"
  | .long name none => "--" ++ name
  | .long name (some value) => "--" ++ name ++ "=" ++ value
  | .short letters => String.ofList ('-' :: letters)
  | .plain text => text

theorem Word.write_ofLong (cs : List Char) :
    (ofLong cs).write = String.ofList ('-' :: '-' :: cs) := by
  have hsplit := List.takeWhile_append_dropWhile (p := (· ≠ '=')) (l := cs)
  rw [ofLong, ← String.toList_inj]
  split
  · rename_i heq
    rw [heq, List.append_nil] at hsplit
    simp only [write, String.toList_append, String.toList_ofList, hsplit]
    rfl
  · rename_i c value heq
    have hc : c = '=' := by
      have hhead := List.head?_dropWhile_not (· ≠ '=') cs
      rw [heq] at hhead
      simpa using hhead
    subst hc
    rw [heq] at hsplit
    rw [congrArg (fun l => String.ofList ('-' :: '-' :: l)) hsplit.symm]
    simp [write]

/-- The form of a word keeps all of it. -/
theorem Word.write_ofText (text : String) : (ofText text).write = text := by
  have htext : String.ofList text.toList = text := String.ofList_toList
  rw [ofText]
  split
  · rename_i heq
    rw [heq] at htext
    exact htext
  · rename_i cs _ heq
    rw [heq] at htext
    rw [write_ofLong, htext]
  · rfl
  · rename_i cs _ heq
    rw [heq] at htext
    exact htext
  · rfl

theorem Word.ofText_ne_short_nil (text : String) : ofText text ≠ .short [] := by
  rw [ofText]
  split
  · nofun
  · rw [ofLong]
    split <;> nofun
  · nofun
  · rename_i hne _
    intro h
    injection h with h
    exact hne h
  · nofun

theorem Word.isPlain_of_ofText {text word : String} (h : ofText text = .plain word) :
    text = word ∧ IsPlain word := by
  have hw := write_ofText text
  rw [h] at hw
  obtain rfl : word = text := hw
  refine ⟨rfl, ?_⟩
  rw [ofText] at h
  split at h
  · cases h
  · rw [ofLong] at h
    split at h <;> cases h
  · rename_i heq
    exact Or.inr (String.toList_inj.mp heq)
  · cases h
  · rename_i hdash
    refine Or.inl fun hhead => ?_
    obtain ⟨cs, hcs⟩ := List.head?_eq_some_iff.mp hhead
    exact hdash cs hcs

/-! ## Reading what is held -/

namespace Progress

/-- No option is waiting for a value. -/
def IsComplete (p : Progress) : Prop := ∀ v, p.held ≠ some (v, none)

theorem finish_cons (p : Progress) {w : String} (ws : List String) {form : Word}
    (hw : Word.ofText w = form) :
    p.finish (w :: ws) = match form with
      | .escape =>
        match ws with
        | [] => p.settle
        | text :: _ => .error (.usage (.unexpectedArgument text))
      | .long name value => p.long name value >>= fun q => q.finish ws
      | .short letters => p.short letters >>= fun q => q.finish ws
      | .plain text => p.plain text >>= fun q => q.finish ws := by
  rw [finish.eq_def]
  simp only [hw]
  cases form with
  | escape => cases ws <;> rfl
  | long name value => rfl
  | short letters => rfl
  | plain text => rfl

theorem switch_ok_iff {p q : Progress} {full : Bool} {s : Switch} :
    p.switch full s = .ok q ↔
      ∃ c c', p.settle = .ok c ∧ c.obey full s = .ok c' ∧ q = ⟨c', none⟩ := by
  simp only [switch, bind_ok_iff]
  constructor
  · rintro ⟨c, hc, c', hc', h⟩
    exact ⟨c, c', hc, hc', (Except.ok.inj h).symm⟩
  · rintro ⟨c, c', hc, hc', rfl⟩
    exact ⟨c, hc, c', hc', rfl⟩

/-- What is held is settled before a long setting is read. -/
theorem long_ok_iff {p q : Progress} {name : String} {value : Option String} :
    p.long name value = .ok q
      ↔ (p.settle >>= fun c => long ⟨c, none⟩ name value) = .ok q := by
  rw [bind_ok_iff]
  unfold long
  split
  · simp
  · simp
  · simp only [switch_ok_iff]
    constructor
    · rintro ⟨c, c', hc, hc', rfl⟩
      exact ⟨c, hc, c, c', rfl, hc', rfl⟩
    · rintro ⟨c, hc, _, c', h, hc', rfl⟩
      cases h
      exact ⟨c, c', hc, hc', rfl⟩
  · simp only [bind_ok_iff]
    constructor
    · rintro ⟨c, hc, h⟩
      exact ⟨c, hc, c, rfl, h⟩
    · rintro ⟨c, hc, _, h, h'⟩
      cases h
      exact ⟨c, hc, h'⟩
  · simp only [bind_ok_iff]
    constructor
    · rintro ⟨c, hc, h⟩
      exact ⟨c, hc, c, rfl, h⟩
    · rintro ⟨c, hc, _, h, h'⟩
      cases h
      exact ⟨c, hc, h'⟩

theorem short_ok_iff {p q : Progress} {letters : List Char} (hne : letters ≠ []) :
    p.short letters = .ok q
      ↔ (p.settle >>= fun c => short ⟨c, none⟩ letters) = .ok q := by
  rw [bind_ok_iff]
  cases letters with
  | nil => exact absurd rfl hne
  | cons letter letters =>
      rw [short]
      cases hs : Switch.ofLetter? letter with
      | none => simp [short, hs]
      | some s =>
          simp only [short, hs, bind_ok_iff, switch_ok_iff]
          constructor
          · rintro ⟨_, ⟨c, c', hc, hc', rfl⟩, h⟩
            exact ⟨c, hc, _, ⟨c, c', rfl, hc', rfl⟩, h⟩
          · rintro ⟨c, hc, _, ⟨_, c', h, hc', rfl⟩, h'⟩
            cases h
            exact ⟨_, ⟨c, c', hc, hc', rfl⟩, h'⟩

theorem plain_ok_iff {p q : Progress} {text : String} :
    p.plain text = .ok q ↔ ∃ v, p.held = some (v, none) ∧ q = { p with held := some (v, some text) } := by
  unfold plain
  split
  · rename_i v heq
    rw [heq]
    constructor
    · intro h
      exact ⟨v, rfl, (Except.ok.inj h).symm⟩
    · rintro ⟨_, h, rfl⟩
      cases h
      rfl
  · rename_i hheld
    constructor
    · intro h; cases h
    · rintro ⟨v, h, -⟩
      exact absurd h (hheld v)

/-- An option that is complete may as well be settled at once: the line is
accepted or not in the same way, with the same result. -/
theorem finish_settled_ok_iff {p : Progress} (hp : p.IsComplete) {ws : List String}
    {c : CommandLine} :
    p.finish ws = .ok c ↔ ∃ c₁, p.settle = .ok c₁ ∧ finish ⟨c₁, none⟩ ws = .ok c := by
  cases ws with
  | nil =>
      rw [finish]
      constructor
      · intro h; exact ⟨c, h, rfl⟩
      · rintro ⟨c₁, h, h'⟩; cases h'; exact h
  | cons w ws =>
      cases hw : Word.ofText w with
      | escape =>
          simp only [finish_cons _ _ hw]
          cases ws with
          | nil =>
              constructor
              · intro h; exact ⟨c, h, rfl⟩
              · rintro ⟨c₁, h, h'⟩; cases h'; exact h
          | cons text ws => simp
      | long name value =>
          simp only [finish_cons _ _ hw, bind_ok_iff]
          rw [exists_congr fun q => and_congr_left fun _ => long_ok_iff (p := p)]
          exact exists_bind_ok_iff
      | short letters =>
          have hne : letters ≠ [] := by
            rintro rfl
            exact Word.ofText_ne_short_nil w hw
          simp only [finish_cons _ _ hw, bind_ok_iff]
          rw [exists_congr fun q => and_congr_left fun _ => short_ok_iff (p := p) hne]
          exact exists_bind_ok_iff
      | plain text =>
          simp only [finish_cons _ _ hw, bind_ok_iff, plain_ok_iff]
          constructor
          · rintro ⟨_, ⟨v, hv, -⟩, -⟩; exact absurd hv (hp v)
          · rintro ⟨_, -, _, ⟨v, hv, -⟩, -⟩; cases hv

section Settled

variable {p : Progress} {c : CommandLine} (h : p.settle = .ok c)
include h

theorem switch_settled (full : Bool) (s : Switch) :
    p.switch full s = switch ⟨c, none⟩ full s := by
  rw [switch, h]
  rfl

theorem long_settled (name : String) (value : Option String) :
    p.long name value = long ⟨c, none⟩ name value := by
  unfold long
  split
  · rfl
  · rfl
  · exact switch_settled h true _
  · rw [h]
    rfl
  · rw [h]
    rfl

theorem short_settled {letters : List Char} (hne : letters ≠ []) :
    p.short letters = short ⟨c, none⟩ letters := by
  cases letters with
  | nil => exact absurd rfl hne
  | cons letter letters =>
      rw [short, short]
      cases Switch.ofLetter? letter with
      | none => rfl
      | some s => simp only [switch_settled h]

/-- If it can be settled, not even an error shows whether it was. -/
theorem finish_settled (hp : p.IsComplete) (ws : List String) :
    p.finish ws = finish ⟨c, none⟩ ws := by
  cases ws with
  | nil =>
      rw [finish, h]
      rfl
  | cons w ws =>
      cases hw : Word.ofText w with
      | escape =>
          rw [finish_cons _ _ hw, finish_cons _ _ hw, h]
          rfl
      | long name value => simp only [finish_cons _ _ hw, long_settled h]
      | short letters =>
          have hne : letters ≠ [] := by
            rintro rfl
            exact Word.ofText_ne_short_nil w hw
          simp only [finish_cons _ _ hw, short_settled h hne]
      | plain text =>
          have hplain : p.plain text = plain ⟨c, none⟩ text := by
            unfold plain
            split
            · rename_i v heq
              exact absurd heq (hp v)
            · rfl
          simp only [finish_cons _ _ hw, hplain]

end Settled

end Progress

/-! ## Reading a row -/

theorem Progress.switch_of_nothing_held (c : CommandLine) (full : Bool) (s : Switch) :
    switch ⟨c, none⟩ full s = (c.obey full s).map (⟨·, none⟩) := by
  show (c.obey full s >>= fun c => .ok (Progress.mk c none)) = _
  cases c.obey full s <;> rfl

/-- Letters behind one dash are flags entered one after the other. -/
theorem Progress.short_letters : ∀ {cs : List Char} {ss : List Switch} (c₀ : CommandLine),
    ss.map Switch.letter? = cs.map some →
      short ⟨c₀, none⟩ cs = ((ss.map (Item.flag · false)).foldlM enter c₀).map (⟨·, none⟩)
  | [], [], _, _ => rfl
  | letter :: cs, s :: ss, c₀, h => by
      rw [List.map_cons, List.map_cons, List.cons.injEq] at h
      have hs := Switch.ofLetter?_eq_some_iff.mpr h.1
      simp only [short, hs, switch_of_nothing_held, List.map_cons, List.foldlM_cons, enter]
      cases c₀.obey false s with
      | error stop => rfl
      | ok c => exact short_letters c h.2

section OneOption

variable {c₀ c : CommandLine} {ws : List String}

theorem finish_joined (v : Valued) (text : String) :
    Progress.finish ⟨c₀, none⟩ (("--" ++ v.name ++ "=" ++ text) :: ws)
      = c₀.store v text >>= fun c => Progress.finish ⟨c, none⟩ ws := by
  have hname : Setting.ofName? v.name = some (.valued v) := Setting.ofName?_eq_some_iff.mpr rfl
  simp only [Progress.finish_cons _ _ (Word.ofText_joined v text), Progress.long, hname]
  show (c₀.store v text >>= fun c => .ok (Progress.mk c none)) >>= _ = _
  cases c₀.store v text <;> rfl

/-- The value stays held until the next word that is no value. -/
theorem finish_apart (v : Valued) {text : String} (htext : IsPlain text) :
    Progress.finish ⟨c₀, none⟩ (("--" ++ v.name) :: text :: ws)
      = Progress.finish ⟨c₀, some (v, some text)⟩ ws := by
  have hname : Setting.ofName? v.name = some (.valued v) := Setting.ofName?_eq_some_iff.mpr rfl
  rw [Progress.finish_cons _ _ (Word.ofText_apart v)]
  simp only [Progress.long, hname]
  show Progress.finish ⟨c₀, some (v, none)⟩ (text :: ws) = _
  rw [Progress.finish_cons _ _ (Word.ofText_plain htext)]
  rfl

/-- An option with its value is complete. -/
theorem Progress.isComplete_value (v : Valued) (text : String) :
    IsComplete ⟨c₀, some (v, some text)⟩ := nofun

theorem finish_named (s : Switch) :
    Progress.finish ⟨c₀, none⟩ (("--" ++ s.name) :: ws)
      = c₀.obey true s >>= fun c => Progress.finish ⟨c, none⟩ ws := by
  have hname : Setting.ofName? s.name = some (.switch s) := Setting.ofName?_eq_some_iff.mpr rfl
  simp only [Progress.finish_cons _ _ (Word.ofText_named s), Progress.long, hname,
    Progress.switch_of_nothing_held]
  cases c₀.obey true s <;> rfl

theorem finish_letters {cs : List Char} {ss : List Switch} (hne : cs ≠ [])
    (hss : ss.map Switch.letter? = cs.map some) :
    Progress.finish ⟨c₀, none⟩ (String.ofList ('-' :: cs) :: ws)
      = (ss.map (Item.flag · false)).foldlM enter c₀ >>= fun c =>
        Progress.finish ⟨c, none⟩ ws := by
  simp only [Progress.finish_cons _ _ (Word.ofText_letters hne hss),
    Progress.short_letters c₀ hss]
  cases (ss.map (Item.flag · false)).foldlM enter c₀ <;> rfl

end OneOption

/-- A row is read by entering its options, whatever comes behind it. -/
theorem finish_row_ok_iff {words : List String} {items : List Item} (h : Row words items)
    (rest : List String) {c : CommandLine} : ∀ c₀ : CommandLine,
      Progress.finish ⟨c₀, none⟩ (words ++ rest) = .ok c ↔
        ∃ c₁, items.foldlM enter c₀ = .ok c₁ ∧ Progress.finish ⟨c₁, none⟩ rest = .ok c := by
  -- The first option has been entered into `c₁`, the others follow by induction.
  have hstep : ∀ {words : List String} {items : List Item} {x : Except Stop CommandLine},
      (∀ c₀ : CommandLine, Progress.finish ⟨c₀, none⟩ (words ++ rest) = .ok c ↔
        ∃ c₁, items.foldlM enter c₀ = .ok c₁ ∧ Progress.finish ⟨c₁, none⟩ rest = .ok c) →
      ((∃ c₁, x = .ok c₁ ∧ Progress.finish ⟨c₁, none⟩ (words ++ rest) = .ok c) ↔
        ∃ c₁, (x >>= fun c₀ => items.foldlM enter c₀) = .ok c₁
          ∧ Progress.finish ⟨c₁, none⟩ rest = .ok c) := by
    intro words items x ih
    simp only [ih]
    exact exists_bind_ok_iff.symm
  induction h with
  | nil =>
      intro c₀
      constructor
      · intro h; exact ⟨c₀, rfl, h⟩
      · rintro ⟨_, h, h'⟩; cases h; exact h'
  | joined v text _ ih =>
      intro c₀
      rw [List.cons_append, List.foldlM_cons, finish_joined, bind_ok_iff]
      exact hstep ih
  | apart v text htext _ ih =>
      intro c₀
      rw [List.cons_append, List.cons_append, List.foldlM_cons, finish_apart v htext,
        Progress.finish_settled_ok_iff (Progress.isComplete_value v text)]
      exact hstep ih
  | named s _ ih =>
      intro c₀
      rw [List.cons_append, List.foldlM_cons, finish_named, bind_ok_iff]
      exact hstep ih
  | letters cs ss hne hss _ ih =>
      intro c₀
      rw [List.cons_append, List.foldlM_append, finish_letters hne hss, bind_ok_iff]
      exact hstep ih

/-- Behind a row whose options can be entered the reading goes on as if it
began there. -/
theorem finish_row {words : List String} {items : List Item} (h : Row words items)
    (rest : List String) : ∀ {c₀ c : CommandLine}, items.foldlM enter c₀ = .ok c →
      Progress.finish ⟨c₀, none⟩ (words ++ rest) = Progress.finish ⟨c, none⟩ rest := by
  induction h with
  | nil =>
      intro c₀ c h
      cases h
      rfl
  | joined v text _ ih =>
      intro c₀ c h
      rw [List.foldlM_cons, bind_ok_iff] at h
      obtain ⟨c₁, hc₁, h⟩ := h
      rw [← ih h, List.cons_append, finish_joined]
      show c₀.enter (.value v text) >>= _ = _
      rw [hc₁]
      rfl
  | apart v text htext _ ih =>
      intro c₀ c h
      rw [List.foldlM_cons, bind_ok_iff] at h
      obtain ⟨c₁, hc₁, h⟩ := h
      rw [← ih h, List.cons_append, List.cons_append, finish_apart v htext]
      have hsettle : Progress.settle ⟨c₀, some (v, some text)⟩ = .ok c₁ := hc₁
      exact Progress.finish_settled hsettle (Progress.isComplete_value v text) _
  | named s _ ih =>
      intro c₀ c h
      rw [List.foldlM_cons, bind_ok_iff] at h
      obtain ⟨c₁, hc₁, h⟩ := h
      rw [← ih h, List.cons_append, finish_named]
      show c₀.enter (.flag s true) >>= _ = _
      rw [hc₁]
      rfl
  | letters cs ss hne hss _ ih =>
      intro c₀ c h
      rw [List.foldlM_append, bind_ok_iff] at h
      obtain ⟨c₁, hc₁, h⟩ := h
      rw [← ih h, List.cons_append, finish_letters hne hss, hc₁]
      rfl

/-! ## A row that stands alone -/

/-- The word that begins an option brings out what is wrong with the option
before it. -/
theorem finish_row_unsettled {words : List String} {items : List Item} (h : Row words items)
    {p : Progress} {stop : Stop} (hp : p.settle = .error stop) : p.finish words = .error stop := by
  have hvalued (v : Valued) : Setting.ofName? v.name = some (.valued v) :=
    Setting.ofName?_eq_some_iff.mpr rfl
  cases h with
  | nil => exact hp
  | joined v text _ =>
      simp only [Progress.finish_cons _ _ (Word.ofText_joined v text), Progress.long, hvalued, hp]
      rfl
  | apart v text _ _ =>
      simp only [Progress.finish_cons _ _ (Word.ofText_apart v), Progress.long, hvalued, hp]
      rfl
  | named s _ =>
      have hname : Setting.ofName? s.name = some (.switch s) := Setting.ofName?_eq_some_iff.mpr rfl
      simp only [Progress.finish_cons _ _ (Word.ofText_named s), Progress.long, hname,
        Progress.switch, hp]
      rfl
  | letters cs ss hne hss _ =>
      simp only [Progress.finish_cons _ _ (Word.ofText_letters hne hss)]
      match cs, ss, hne, hss with
      | letter :: cs, s :: ss, _, hss =>
          rw [List.map_cons, List.map_cons, List.cons.injEq] at hss
          simp only [Progress.short, Switch.ofLetter?_eq_some_iff.mpr hss.1, Progress.switch, hp]
          rfl

theorem finish_row_eq {words : List String} {items : List Item} (h : Row words items) :
    ∀ c₀ : CommandLine, Progress.finish ⟨c₀, none⟩ words = items.foldlM enter c₀ := by
  induction h with
  | nil => exact fun _ => rfl
  | joined v text _ ih =>
      intro c₀
      rw [finish_joined, List.foldlM_cons]
      exact congrArg (c₀.store v text >>= ·) (funext ih)
  | apart v text htext hrow ih =>
      intro c₀
      rw [finish_apart v htext, List.foldlM_cons]
      cases hstore : c₀.enter (.value v text) with
      | error stop => exact finish_row_unsettled hrow hstore
      | ok c =>
          have hsettle : Progress.settle ⟨c₀, some (v, some text)⟩ = .ok c := hstore
          rw [Progress.finish_settled hsettle (Progress.isComplete_value v text)]
          exact ih c
  | named s _ ih =>
      intro c₀
      rw [finish_named, List.foldlM_cons]
      exact congrArg (c₀.obey true s >>= ·) (funext ih)
  | letters cs ss hne hss _ ih =>
      intro c₀
      rw [finish_letters hne hss, List.foldlM_append]
      exact congrArg ((ss.map (Item.flag · false)).foldlM enter c₀ >>= ·) (funext ih)

/-- The words of a row are read by entering its options, and what is wrong
with them is what is wrong with the first that cannot be entered. -/
theorem ofArgs?_row {words : List String} {items : List Item} (h : Row words items) :
    ofArgs? words = items.foldlM enter {} :=
  finish_row_eq h {}

/-! ## The row of an accepted line -/

theorem Switch.exists_of_letters : ∀ {cs : List Char} {p q : Progress},
    p.short cs = .ok q → ∃ ss : List Switch, ss.map Switch.letter? = cs.map some
  | [], _, _, _ => ⟨[], rfl⟩
  | letter :: cs, p, q, h => by
      rw [Progress.short] at h
      cases hs : Switch.ofLetter? letter with
      | none => rw [hs] at h; cases h
      | some s =>
          simp only [hs, bind_ok_iff] at h
          obtain ⟨_, -, h⟩ := h
          obtain ⟨ss, hss⟩ := exists_of_letters h
          exact ⟨s :: ss, by rw [List.map_cons, hss, ofLetter?_eq_some_iff.mp hs]; rfl⟩

/-- An option that waits for its value is followed by a word that can be one. -/
theorem Progress.exists_value {c₀ c : CommandLine} {v : Valued} {ws : List String}
    (h : finish ⟨c₀, some (v, none)⟩ ws = .ok c) :
    ∃ text rest, ws = text :: rest ∧ IsPlain text := by
  cases ws with
  | nil => cases h
  | cons w ws =>
      cases hw : Word.ofText w with
      | plain text => exact ⟨w, ws, rfl, (Word.isPlain_of_ofText hw).1 ▸ (Word.isPlain_of_ofText hw).2⟩
      | escape =>
          rw [finish_cons _ _ hw] at h
          cases ws <;> cases h
      | long name value =>
          simp only [finish_cons _ _ hw, bind_ok_iff, long_ok_iff (p := ⟨c₀, _⟩)] at h
          obtain ⟨_, ⟨_, hsettle, -⟩, -⟩ := h
          cases hsettle
      | short letters =>
          have hne : letters ≠ [] := by
            rintro rfl
            exact Word.ofText_ne_short_nil w hw
          simp only [finish_cons _ _ hw, bind_ok_iff, short_ok_iff (p := ⟨c₀, _⟩) hne] at h
          obtain ⟨_, ⟨_, hsettle, -⟩, -⟩ := h
          cases hsettle

/-- What is accepted begins with an option, or is the two dashes at the end. -/
theorem exists_first_option {c₀ c : CommandLine} {w : String} {ws : List String}
    (h : Progress.finish ⟨c₀, none⟩ (w :: ws) = .ok c) :
    w :: ws = ["--"] ∨
      ∃ words items rest, Row words items ∧ words ≠ [] ∧ w :: ws = words ++ rest := by
  have hwrite := Word.write_ofText w
  cases hw : Word.ofText w with
  | escape =>
      rw [hw] at hwrite
      rw [Progress.finish_cons _ _ hw] at h
      cases ws with
      | nil => exact Or.inl (by rw [← hwrite]; rfl)
      | cons text ws => cases h
  | plain text =>
      simp only [Progress.finish_cons _ _ hw, bind_ok_iff, Progress.plain_ok_iff] at h
      obtain ⟨_, ⟨_, hheld, -⟩, -⟩ := h
      cases hheld
  | short letters =>
      rw [hw] at hwrite
      simp only [Progress.finish_cons _ _ hw, bind_ok_iff] at h
      obtain ⟨_, hshort, -⟩ := h
      obtain ⟨ss, hss⟩ := Switch.exists_of_letters hshort
      have hne : letters ≠ [] := by
        rintro rfl
        exact Word.ofText_ne_short_nil w hw
      have hrow : Row [w] (ss.map (.flag · false) ++ []) := by
        rw [← hwrite]
        exact .letters letters ss hne hss .nil
      exact Or.inr ⟨[w], _, ws, hrow, List.cons_ne_nil _ _, rfl⟩
  | long name value =>
      rw [hw] at hwrite
      simp only [Progress.finish_cons _ _ hw, bind_ok_iff] at h
      obtain ⟨q, hlong, hq⟩ := h
      unfold Progress.long at hlong
      split at hlong
      · cases hlong
      · cases hlong
      · rename_i s hname
        obtain rfl := Setting.ofName?_eq_some_iff.mp hname
        refine Or.inr ⟨[w], [.flag s true], ws, ?_, List.cons_ne_nil _ _, rfl⟩
        rw [← hwrite]
        exact .named s .nil
      · rename_i v hname
        obtain rfl := Setting.ofName?_eq_some_iff.mp hname
        obtain ⟨_, hc₀, hheld⟩ := bind_ok_iff.mp hlong
        cases hc₀
        cases hheld
        obtain ⟨text, rest, rfl, htext⟩ := Progress.exists_value hq
        refine Or.inr ⟨[w, text], [.value v text], rest, ?_, List.cons_ne_nil _ _, rfl⟩
        rw [← hwrite]
        exact .apart v text htext .nil
      · rename_i v text hname
        obtain rfl := Setting.ofName?_eq_some_iff.mp hname
        refine Or.inr ⟨[w], [.value v text], ws, ?_, List.cons_ne_nil _ _, rfl⟩
        rw [← hwrite]
        exact .joined v text .nil

/-- What is accepted is written as a line, and its options were entered. -/
theorem exists_line : ∀ {ws : List String} {c₀ c : CommandLine},
    Progress.finish ⟨c₀, none⟩ ws = .ok c →
      ∃ items, Line ws items ∧ items.foldlM enter c₀ = .ok c
  | [], c₀, c, h => ⟨[], ⟨[], .nil, Or.inl rfl⟩, h⟩
  | w :: ws, c₀, c, h => by
      rcases exists_first_option h with hend | ⟨words, items, rest, hrow, hne, hws⟩
      · rw [hend] at h ⊢
        exact ⟨[], ⟨[], .nil, Or.inr rfl⟩, h⟩
      · rw [hws] at h ⊢
        obtain ⟨c₁, hc₁, hrest⟩ := (finish_row_ok_iff hrow rest c₀).mp h
        have hlt : rest.length < (w :: ws).length := by
          rw [hws, List.length_append]
          have := List.length_pos_iff.mpr hne
          omega
        obtain ⟨items', hline, hitems⟩ := exists_line hrest
        refine ⟨items ++ items', hrow.line hline, ?_⟩
        rw [List.foldlM_append, bind_ok_iff]
        exact ⟨c₁, hc₁, hitems⟩
termination_by ws => ws.length
decreasing_by exact hlt

/-- **What is accepted.** A command line is read with success exactly if it
is written as a row of options, with or without two dashes at its end,
whose options can be entered one after the other. -/
theorem ofArgs?_ok_iff {args : List String} {c : CommandLine} :
    ofArgs? args = .ok c ↔ ∃ items, Line args items ∧ items.foldlM enter {} = .ok c := by
  constructor
  · exact exists_line
  · rintro ⟨items, ⟨row, hrow, rfl | rfl⟩, hitems⟩
    · have h := (finish_row_ok_iff hrow [] (c := c) {}).mpr ⟨c, hitems, rfl⟩
      rw [List.append_nil] at h
      exact h
    · exact (finish_row_ok_iff hrow ["--"] {}).mpr ⟨c, hitems, rfl⟩

end AdvisoryGate.CommandLine
