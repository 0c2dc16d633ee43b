import AdvisoryGate.Proofs.CommandLine

/-!
# Words put between two options

A change to what a command line says, such as a flag that is set, can be
made before or after the rest of the line is read, as long as nothing in
the rest looks at what is changed. `Commutes` says this of one setting and
`Respects` of the words of a line; `finish_change` carries it through the
whole reading, errors and notices included.

The headline is `ofArgs?_insert`: options put into a line at a place where
one can stand change the line by what they say, and by nothing else.
`ofArgs?_eq_of_fixed` is its counterpart for an option that the line lacks.
The cases of `--dry-run` follow at the end.
-/

namespace AdvisoryGate.CommandLine

/-! ## Changes that settings do not see -/

/-- The word sets something. -/
inductive Word.Sets : Word → Setting → Prop
  | valued {name : String} {v : Valued} (value : Option String) :
      Setting.ofName? name = some (.valued v) → Sets (.long name value) (.valued v)
  | switch {name : String} {s : Switch} :
      Setting.ofName? name = some (.switch s) → Sets (.long name none) (.switch s)
  | letter {letters : List Char} {letter : Char} {s : Switch} :
      letter ∈ letters → Switch.ofLetter? letter = some s → Sets (.short letters) (.switch s)

/-- The setting is carried out in the same way before the change and after
it, and the change can follow it as well. -/
def Commutes (f : CommandLine → CommandLine) : Setting → Prop
  | .valued v => ∀ c text, (f c).store v text = (c.store v text).map f
  | .switch s => ∀ c full, (f c).obey full s = (c.obey full s).map f

/-- Nothing that the words set sees the change. -/
def Respects (f : CommandLine → CommandLine) (words : List String) : Prop :=
  ∀ w ∈ words, ∀ s, (Word.ofText w).Sets s → Commutes f s

theorem Word.Sets.of_valued {w : String} {v : Valued} (h : (Word.ofText w).Sets (.valued v)) :
    w = "--" ++ v.name ∨ ∃ text, w = "--" ++ v.name ++ "=" ++ text := by
  have hwrite := Word.write_ofText w
  generalize Word.ofText w = form at h hwrite
  cases h with
  | valued value hname =>
      rw [Setting.ofName?_eq_some_iff.mp hname] at hwrite
      cases value with
      | none => exact Or.inl hwrite.symm
      | some text => exact Or.inr ⟨text, hwrite.symm⟩

theorem Word.Sets.of_switch {w : String} {s : Switch} (h : (Word.ofText w).Sets (.switch s))
    (hs : s.letter? = none) : w = "--" ++ s.name := by
  have hwrite := Word.write_ofText w
  generalize Word.ofText w = form at h hwrite
  cases h with
  | switch hname =>
      rw [Setting.ofName?_eq_some_iff.mp hname] at hwrite
      exact hwrite.symm
  | letter _ hletter =>
      rw [Switch.ofLetter?_eq_some_iff.mp hletter] at hs
      cases hs

section Once

/-! What is allowed once sees of the rest only whether it is there. -/

variable {f : CommandLine → CommandLine}

theorem commutes_config (hget : ∀ c, (f c).config = c.config)
    (hset : ∀ c text, { f c with config := some text } = f { c with config := some text }) :
    Commutes f (.valued .config) := by
  intro c text
  rw [store, store, hget, hset]
  cases c.config <;> rfl

theorem commutes_profile (hget : ∀ c, (f c).profile = c.profile)
    (hset : ∀ c text, { f c with profile := some text } = f { c with profile := some text }) :
    Commutes f (.valued .profile) := by
  intro c text
  rw [store, store, hget, hset]
  cases c.profile <;> rfl

theorem commutes_dryRun (hget : ∀ c, (f c).dryRun = c.dryRun)
    (hset : ∀ c, { f c with dryRun := true } = f { c with dryRun := true }) :
    Commutes f (.switch .dryRun) := by
  intro c full
  rw [obey, obey, hget, hset]
  cases c.dryRun <;> rfl

end Once

/-! ## The reading -/

namespace Progress

/-- The change, made in the middle of the reading. -/
def change (f : CommandLine → CommandLine) (p : Progress) : Progress := ⟨f p.settled, p.held⟩

/-- The option that is held, if there is one, does not see the change. -/
def HeldRespects (f : CommandLine → CommandLine) (p : Progress) : Prop :=
  ∀ v text, p.held = some (v, text) → Commutes f (.valued v)

variable {f : CommandLine → CommandLine} {p : Progress}

theorem settle_change (h : p.HeldRespects f) : (p.change f).settle = p.settle.map f := by
  obtain ⟨c, held⟩ := p
  match held, h with
  | none, _ => rfl
  | some (v, none), _ => rfl
  | some (v, some text), h => exact h v (some text) rfl c text

/-- A step of the reading, without the change and with it. -/
structure Parallel (f : CommandLine → CommandLine) (x y : Except Stop Progress) : Prop where
  eq : y = x.map (change f)
  heldRespects : ∀ q, x = .ok q → q.HeldRespects f

theorem Parallel.error (stop : Stop) : Parallel f (.error stop) (.error stop) :=
  ⟨rfl, nofun⟩

theorem Parallel.ok {q : Progress} (h : q.HeldRespects f) : Parallel f (.ok q) (.ok (q.change f)) :=
  ⟨rfl, fun _ hq => Except.ok.inj hq ▸ h⟩

/-- What follows a step in parallel goes on in parallel. -/
theorem Parallel.bind {α : Type} {x y : Except Stop Progress} {g : α → α}
    {k : Progress → Except Stop α} (h : Parallel f x y)
    (hk : ∀ q, q.HeldRespects f → k (q.change f) = (k q).map g) :
    y >>= k = (x >>= k).map g := by
  obtain ⟨rfl, hq⟩ := h
  cases x with
  | error stop => rfl
  | ok q => exact hk q (hq q rfl)

theorem heldRespects_of_nothing_held (c : CommandLine) : HeldRespects f ⟨c, none⟩ := nofun

theorem switch_change (h : p.HeldRespects f) {s : Switch} (hs : Commutes f (.switch s))
    (full : Bool) : Parallel f (p.switch full s) ((p.change f).switch full s) := by
  rw [switch, switch, settle_change h]
  cases p.settle with
  | error stop => exact .error stop
  | ok c =>
      show Parallel f (c.obey full s >>= fun c => .ok (Progress.mk c none))
        ((f c).obey full s >>= fun c => .ok (Progress.mk c none))
      rw [hs c full]
      cases c.obey full s with
      | error stop => exact .error stop
      | ok c => exact .ok (heldRespects_of_nothing_held c)

theorem long_change (h : p.HeldRespects f) {name : String} {value : Option String}
    (hs : ∀ s, (Word.long name value).Sets s → Commutes f s) :
    Parallel f (p.long name value) ((p.change f).long name value) := by
  unfold long
  split
  · exact .error _
  · exact .error _
  · rename_i s hname
    exact switch_change h (hs _ (.switch hname)) true
  · rename_i v hname
    rw [settle_change h]
    cases p.settle with
    | error stop => exact .error stop
    | ok c =>
        refine Parallel.ok (f := f) fun _ _ heq => ?_
        cases heq
        exact hs _ (.valued none hname)
  · rename_i v text hname
    rw [settle_change h]
    cases p.settle with
    | error stop => exact .error stop
    | ok c =>
        show Parallel f (c.store v text >>= fun c => .ok (Progress.mk c none))
          ((f c).store v text >>= fun c => .ok (Progress.mk c none))
        rw [hs _ (.valued (some text) hname) c text]
        cases c.store v text with
        | error stop => exact .error stop
        | ok c => exact .ok (heldRespects_of_nothing_held c)

theorem short_change : ∀ {letters : List Char} {p : Progress}, p.HeldRespects f →
    (∀ s, (Word.short letters).Sets s → Commutes f s) →
      Parallel f (p.short letters) ((p.change f).short letters)
  | [], _, h, _ => .ok h
  | letter :: letters, p, h, hs => by
      rw [short, short]
      cases hletter : Switch.ofLetter? letter with
      | none => exact .error _
      | some s =>
          have hswitch := switch_change h (hs _ (.letter (List.mem_cons_self ..) hletter)) false
          have hrest : ∀ s, (Word.short letters).Sets s → Commutes f s := by
            rintro _ (_ | _ | ⟨hmem, heq⟩)
            exact hs _ (.letter (List.mem_cons_of_mem _ hmem) heq)
          refine ⟨hswitch.bind fun q hq => (short_change hq hrest).eq, fun r hr => ?_⟩
          obtain ⟨q, hq, hr⟩ := bind_ok_iff.mp hr
          exact (short_change (hswitch.heldRespects q hq) hrest).heldRespects r hr

theorem plain_change (h : p.HeldRespects f) (text : String) :
    Parallel f (p.plain text) ((p.change f).plain text) := by
  obtain ⟨c, held⟩ := p
  match held, h with
  | none, _ => exact .error _
  | some (v, some _), _ => exact .error _
  | some (v, none), h =>
      refine Parallel.ok fun _ _ heq => ?_
      cases heq
      exact h v none rfl

/-- The reading goes the same way with the change and without it. -/
theorem finish_change : ∀ {words : List String} {p : Progress}, p.HeldRespects f →
    Respects f words → (p.change f).finish words = (p.finish words).map f
  | [], _, h, _ => settle_change h
  | w :: ws, p, h, hs => by
      have hw := hs w (List.mem_cons_self ..)
      have hws : Respects f ws := fun w hw => hs w (List.mem_cons_of_mem _ hw)
      cases hform : Word.ofText w with
      | escape =>
          simp only [finish_cons _ _ hform]
          cases ws with
          | nil => exact settle_change h
          | cons text ws => rfl
      | long name value =>
          rw [hform] at hw
          simp only [finish_cons _ _ hform]
          exact (long_change h hw).bind fun q hq => finish_change hq hws
      | short letters =>
          rw [hform] at hw
          simp only [finish_cons _ _ hform]
          exact (short_change h hw).bind fun q hq => finish_change hq hws
      | plain text =>
          simp only [finish_cons _ _ hform]
          exact (plain_change h text).bind fun q hq => finish_change hq hws

end Progress

/-! ## Lines with options put in -/

variable {f : CommandLine → CommandLine}

/-- **What is put between two options** changes the line by what it says.
This holds of lines that are not accepted too, as long as the options up to
that place can be entered. -/
theorem ofArgs?_insert {before piece after : List String} {items added : List Item}
    {c : CommandLine} (hbefore : Row before items) (hc : items.foldlM enter {} = .ok c)
    (hpiece : Row piece added) (hadded : added.foldlM enter c = .ok (f c))
    (hafter : Respects f after) :
    ofArgs? (before ++ (piece ++ after)) = (ofArgs? (before ++ after)).map f := by
  have hchange := Progress.finish_change (Progress.heldRespects_of_nothing_held c) hafter
  rw [ofArgs?, ofArgs?, finish_row hbefore _ hc, finish_row hbefore _ hc,
    finish_row hpiece _ hadded]
  exact hchange

/-- A change that no word sees and that is none at the start is none at the
end. -/
theorem ofArgs?_eq_of_fixed {words : List String} {c : CommandLine} (hf : f {} = {})
    (hwords : Respects f words) (hc : ofArgs? words = .ok c) : f c = c := by
  have hchange := Progress.finish_change (Progress.heldRespects_of_nothing_held {}) hwords
  have hstart : Progress.change f ⟨{}, none⟩ = {} := congrArg (Progress.mk · none) hf
  rw [hstart] at hchange
  have hsame := hc.symm.trans (hchange.trans (congrArg (Except.map f) hc))
  exact (Except.ok.inj hsame).symm

/-! ## The flag for a dry run -/

def withDryRun (b : Bool) (c : CommandLine) : CommandLine := { c with dryRun := b }

/-- Only the flag itself sees whether it is set. -/
theorem commutes_withDryRun (b : Bool) {s : Setting} (hs : s ≠ .switch .dryRun) :
    Commutes (withDryRun b) s := by
  cases s with
  | valued v =>
      cases v with
      | config => exact commutes_config (fun _ => rfl) fun _ _ => rfl
      | profile => exact commutes_profile (fun _ => rfl) fun _ _ => rfl
      | ignore => exact fun _ _ => rfl
  | switch s =>
      cases s with
      | dryRun => exact absurd rfl hs
      | verbose | help | version => exact fun _ _ => rfl

theorem respects_withDryRun {words : List String} (hwords : "--dry-run" ∉ words) (b : Bool) :
    Respects (withDryRun b) words := by
  intro w hw s hs
  refine commutes_withDryRun b ?_
  rintro rfl
  obtain rfl := hs.of_switch rfl
  exact hwords hw

theorem dryRun_eq_false {words : List String} {c : CommandLine}
    (hwords : "--dry-run" ∉ words) (hc : ofArgs? words = .ok c) : c.dryRun = false :=
  congrArg dryRun (ofArgs?_eq_of_fixed rfl (respects_withDryRun hwords false) hc).symm

/-- Put between two options of an accepted line that lacks it, the flag for
a dry run changes itself and nothing else. -/
theorem ofArgs?_insert_dryRun {before after : List String} {items : List Item}
    {c : CommandLine} (hrow : Row before items) (h : ofArgs? (before ++ after) = .ok c)
    (hnot : "--dry-run" ∉ before ++ after) :
    c.dryRun = false ∧ ofArgs? (before ++ "--dry-run" :: after) = .ok (c.withDryRun true) := by
  obtain ⟨c₀, hc₀, -⟩ := (finish_row_ok_iff hrow after {}).mp h
  have hsplit := hnot
  rw [List.mem_append, not_or] at hsplit
  have hbefore : ofArgs? before = .ok c₀ := ofArgs?_ok_iff.mpr ⟨items, hrow.line_self, hc₀⟩
  have hflag : [Item.flag .dryRun true].foldlM enter c₀ = .ok (c₀.withDryRun true) := by
    simp [enter, obey, dryRun_eq_false hsplit.1 hbefore, withDryRun]
  refine ⟨dryRun_eq_false hnot h, ?_⟩
  have hinsert := ofArgs?_insert hrow hc₀ (.named .dryRun .nil) hflag
    (respects_withDryRun hsplit.2 true)
  rw [h] at hinsert
  exact hinsert

end AdvisoryGate.CommandLine
