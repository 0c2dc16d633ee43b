import AdvisoryGate.Plan
import AdvisoryGate.Proofs.IgnoreList

/-!
# What a configuration resolves to

A resolution that succeeds has passed each of its rules (`resolve_ok`), and
what it comes to can be said without them: the values that were written
where they were written, the defaults elsewhere, and the ids of all sources
at their first occurrence (`resolve_merges_sources`).

The invocation has a branch of its own for a configuration that names
neither program nor arguments; `invocationOf_eq` shows that it is the
general rule all the same.
-/

namespace AdvisoryGate

theorem Preset.eraseDups_find? {name : String} {l : IgnoreList} (h : find? name = some l) :
    l.ids.eraseDups = l.ids := by
  rw [find?] at h
  split at h
  · cases h; decide +kernel
  · split at h
    · cases h; rfl
    · cases h

namespace Plan

/-! ## The steps of a resolution -/

theorem presetOf_ok_iff {name : String} {l : IgnoreList} :
    presetOf name = .ok l ↔ Preset.find? name = some l := by
  rw [presetOf]
  cases Preset.find? name <;> simp

theorem programOf_ok {command : Option String} {program : String}
    (h : programOf command = .ok program) :
    program = command.getD Invocation.defaultProgram := by
  cases command with
  | none => exact (Except.ok.inj h).symm
  | some command =>
      rw [programOf] at h
      split at h
      · cases h
      · exact (Except.ok.inj h).symm

/-- The branch for neither program nor arguments is no exception. -/
theorem invocationOf_eq (cfg : Config) (ignore : IgnoreList) :
    invocationOf cfg ignore = (programOf cfg.command).map fun program =>
      ⟨program, cfg.args.getD Invocation.defaultLeading, ignore⟩ := by
  rw [invocationOf]
  split
  · rename_i hc ha
    rw [hc, ha]
    rfl
  · rfl

theorem invocationOf_ok {cfg : Config} {ignore : IgnoreList} {inv : Invocation}
    (h : invocationOf cfg ignore = .ok inv) :
    inv = ⟨cfg.command.getD Invocation.defaultProgram,
      cfg.args.getD Invocation.defaultLeading, ignore⟩ := by
  rw [invocationOf_eq, map_ok_iff] at h
  obtain ⟨program, hp, rfl⟩ := h
  rw [programOf_ok hp]

/-- All ids that are supplied, in order and with their repeats. -/
def supplied (preset : IgnoreList) (cfg : Config) (o : Overrides) : List AdvisoryId :=
  preset.ids ++ cfg.ignore.map .cut ++ o.ignore.map .cut

/-- What a resolution that succeeds has passed, and what it answers. -/
theorem resolve_ok {cfg : Config} {o : Overrides} {p : Plan} (h : resolve cfg o = .ok p) :
    p.profile = profileOf cfg o ∧ ∃ preset, Preset.find? p.profile = some preset
      ∧ p.invocation = ⟨cfg.command.getD Invocation.defaultProgram,
          cfg.args.getD Invocation.defaultLeading,
          (preset.merge (cfg.ignore.map .cut)).merge (o.ignore.map .cut)⟩ := by
  simp only [resolve, bind_ok_iff, mapError_ok_iff] at h
  obtain ⟨-, -, preset, hpreset, listed, hlisted, ignore, hignore, inv, hinv, hp⟩ := h
  obtain rfl := IgnoreList.extendUnique_ok hlisted
  obtain rfl := IgnoreList.extendUnique_ok hignore
  obtain rfl := invocationOf_ok hinv
  obtain rfl := Except.ok.inj hp
  exact ⟨rfl, preset, presetOf_ok_iff.mp hpreset, rfl⟩

/-- The merged list holds the first occurrences among all supplied ids. -/
theorem ids_merge_supplied {name : String} {preset : IgnoreList}
    (h : Preset.find? name = some preset) (cfg : Config) (o : Overrides) :
    ((preset.merge (cfg.ignore.map .cut)).merge (o.ignore.map .cut)).ids
      = (supplied preset cfg o).eraseDups :=
  IgnoreList.ids_merge (IgnoreList.ids_merge (Preset.eraseDups_find? h).symm)

theorem preset_isPrefix {name : String} {preset : IgnoreList}
    (h : Preset.find? name = some preset) (cfg : Config) (o : Overrides) :
    preset.ids <+: (supplied preset cfg o).eraseDups := by
  rw [supplied, List.append_assoc, List.eraseDups_append, Preset.eraseDups_find? h]
  exact List.prefix_append _ _

/-- A text is parsed first, and resolved if that succeeds. -/
theorem ofText_eq (text : String) (o : Overrides) :
    ofText text o = match configOf text with
      | .error e => .error (.parse e)
      | .ok cfg => (resolve cfg o).mapError .resolve := by
  rw [ofText]
  cases configOf text <;> rfl

/-- A text that is no shortcut. -/
theorem ofText_of_parse {text : String} {cfg : Config} (hblank : Text.isBlank text = false)
    (hparse : Config.parse text = .ok cfg) (o : Overrides) :
    ofText text o = (resolve cfg o).mapError .resolve := by
  rw [ofText_eq, configOf, hblank, hparse]
  rfl

/-! ## The law of successful resolutions -/

/-- **What a resolution comes to.** The profile is that of the command line,
else that of the configuration, else the default one. Program and leading
arguments are the configured ones as they are written, or the defaults. The
ignore list holds the first occurrences among the ids of the preset, of the
configuration and of the command line, in this order: none twice, none
missing, in the order in which they first come, the whole preset in front. -/
theorem resolve_merges_sources {cfg : Config} {o : Overrides} {p : Plan}
    (h : resolve cfg o = .ok p) :
    (p.profile = match o.profile, cfg.profile with
        | some name, _ => name
        | none, some name => name
        | none, none => "default")
      ∧ p.invocation.program = cfg.command.getD "cargo"
      ∧ p.invocation.leading = cfg.args.getD ["audit"]
      ∧ (∃ preset, Preset.find? p.profile = some preset
          ∧ p.invocation.ignore.ids = (supplied preset cfg o).eraseDups
          ∧ preset.ids <+: p.invocation.ignore.ids
          ∧ (∀ id, id ∈ p.invocation.ignore.ids ↔ id ∈ supplied preset cfg o)
          ∧ ∀ a ∈ supplied preset cfg o, ∀ b ∈ supplied preset cfg o,
              p.invocation.ignore.ids.idxOf a < p.invocation.ignore.ids.idxOf b
                ↔ (supplied preset cfg o).idxOf a < (supplied preset cfg o).idxOf b)
      ∧ p.invocation.ignore.ids.Nodup
      ∧ invocationOf cfg p.invocation.ignore = (programOf cfg.command).map fun program =>
          ⟨program, cfg.args.getD Invocation.defaultLeading, p.invocation.ignore⟩ := by
  obtain ⟨hprofile, preset, hpreset, hinv⟩ := resolve_ok h
  have hids : p.invocation.ignore.ids = (supplied preset cfg o).eraseDups := by
    rw [hinv]
    exact ids_merge_supplied hpreset cfg o
  refine ⟨?_, by rw [hinv]; rfl, by rw [hinv]; rfl, ⟨preset, hpreset, hids, ?_, ?_, ?_⟩,
    by rw [hids]; exact nodup_eraseDups _, invocationOf_eq _ _⟩
  · rw [hprofile, profileOf]
    cases o.profile with
    | some name => rfl
    | none => cases cfg.profile <;> rfl
  · rw [hids]
    exact preset_isPrefix hpreset cfg o
  · intro id
    rw [hids]
    exact List.mem_eraseDups
  · intro a ha b hb
    rw [hids]
    exact idxOf_eraseDups_lt_iff ha hb

/-- Blanks are cut before ids are compared; the repeats and the empty word
among the arguments stay. -/
theorem resolve_merges_padded_ids :
    let cfg : Config :=
      { command := some " x ", args := some ["", "a", "a"],
        ignore := ["\u3000RUSTSEC-2024-0344 ", "A\u00a0", "A"] }
    let o : Overrides := { ignore := ["\tA", "B"] }
    let ids : List AdvisoryId :=
      [⟨"RUSTSEC-2022-0093"⟩, ⟨"RUSTSEC-2024-0344"⟩, ⟨"A"⟩, ⟨"B"⟩]
    resolve cfg o = .ok ⟨"default", ⟨" x ", ["", "a", "a"], ⟨ids⟩⟩⟩ ∧ ids.Nodup
      ∧ ∃ preset, Preset.find? "default" = some preset
        ∧ ids = (supplied preset cfg o).eraseDups := by
  intro cfg o ids
  have h : resolve cfg o = .ok ⟨"default", ⟨" x ", ["", "a", "a"], ⟨ids⟩⟩⟩ := by
    decide +kernel
  obtain ⟨-, -, -, ⟨preset, hpreset, hids, -⟩, hnodup, -⟩ := resolve_merges_sources h
  exact ⟨h, hnodup, preset, hpreset, hids⟩

end Plan

end AdvisoryGate
