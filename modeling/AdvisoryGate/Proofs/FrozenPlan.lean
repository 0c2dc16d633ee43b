import AdvisoryGate.Proofs.Rules

/-!
# Plans written down as configurations

A plan can be written down: its program, its leading arguments and its ids
as a configuration, any of the last ids as overrides. Resolved again, this
gives the invocation of the plan (`resolve_frozen_plan`), so that what is
pinned today is what runs tomorrow.

Three things have to be stable for it. The ids of a plan are cut already,
so they are stored as they are (`Settled`); they are without repeats and
begin with the preset, so merging the preset in again adds nothing
(`eraseDups_append_of_prefix`); and no rule can be broken by what a plan
holds, since the first resolution has obeyed them all.
-/

namespace AdvisoryGate

/-! ## Lists without repeats -/

theorem eraseDups_of_nodup {α : Type} [BEq α] [LawfulBEq α] {l : List α} (h : l.Nodup) :
    l.eraseDups = l := by
  induction l using List.reverseRecOn with
  | nil => rfl
  | append_singleton l x ih =>
      rw [List.nodup_append] at h
      obtain ⟨hl, -, hne⟩ := h
      have hx : x ∉ l := fun hx => hne x hx x (List.mem_singleton_self x) rfl
      rw [eraseDups_concat, if_neg hx, ih hl]

/-- Putting a beginning of the list in front of it adds no first occurrence. -/
theorem eraseDups_append_of_prefix {α : Type} [BEq α] [LawfulBEq α] {l l' : List α}
    (h : l.Nodup) (hpre : l' <+: l) : (l' ++ l).eraseDups = l := by
  obtain ⟨rest, rfl⟩ := hpre
  have hl' : l'.Nodup := (List.nodup_append.mp h).1
  have hrest : rest.Nodup := (List.nodup_append.mp h).2.1
  have hremoved : (l' ++ rest).removeAll l' = rest := by
    have hnew : ∀ x ∈ rest, (!l'.elem x) = true := by
      intro x hx
      have hx' : x ∉ l' := fun hx' => (List.nodup_append.mp h).2.2 x hx' x hx rfl
      simpa using hx'
    have hold : l'.filter (fun x => !l'.elem x) = [] :=
      List.filter_eq_nil_iff.mpr fun x hx => by simpa using hx
    rw [List.removeAll, List.filter_append, hold, List.filter_eq_self.mpr hnew, List.nil_append]
  rw [List.eraseDups_append, eraseDups_of_nodup hl', hremoved, eraseDups_of_nodup hrest]

/-! ## Ids that are stored as they are written -/

namespace AdvisoryId

/-- The text of the id, read as a user's, gives the id back. -/
structure Settled (id : AdvisoryId) : Prop where
  visible : Text.isBlank id.text = false
  trimmed : Text.trim id.text = id.text

theorem settled_cut {raw : String} (h : Text.isBlank raw = false) : (cut raw).Settled :=
  ⟨(Text.isBlank_trim raw).trans h, Text.trim_trim raw⟩

theorem Settled.cut_text {id : AdvisoryId} (h : id.Settled) : cut id.text = id :=
  congrArg AdvisoryId.mk h.trimmed

end AdvisoryId

theorem IgnoreList.map_cut_texts {l : IgnoreList} (h : ∀ id ∈ l.ids, id.Settled) :
    l.texts.map .cut = l.ids := by
  rw [texts, List.map_map]
  exact (List.map_congr_left fun id hid => (h id hid).cut_text).trans (List.map_id _)

theorem Preset.settled {name : String} {l : IgnoreList} (h : find? name = some l) :
    ∀ id ∈ l.ids, id.Settled := by
  have haccepted : ∀ id ∈ accepted.ids,
      Text.isBlank id.text = false ∧ Text.trim id.text = id.text := by decide +kernel
  rw [find?] at h
  split at h
  · obtain rfl := Option.some.inj h
    exact fun id hid => ⟨(haccepted id hid).1, (haccepted id hid).2⟩
  · split at h
    · obtain rfl := Option.some.inj h
      exact fun id hid => absurd hid List.not_mem_nil
    · cases h

/-! ## The parts of an invocation -/

theorem IgnoreList.length_arguments (l : IgnoreList) : l.arguments.length = 2 * l.length := by
  obtain ⟨ids⟩ := l
  induction ids with
  | nil => rfl
  | cons id ids ih =>
      simp only [arguments, length, List.flatMap_cons, List.length_append, List.length_cons] at ih ⊢
      rw [ih, List.length_nil]
      omega

namespace Invocation

theorem leading_eq_take (inv : Invocation) :
    inv.args.take (inv.args.length - 2 * inv.ignore.length) = inv.leading := by
  rw [args, List.length_append, IgnoreList.length_arguments, Nat.add_sub_cancel]
  exact List.take_left' rfl

end Invocation

namespace Plan

variable {cfg : Config} {o : Overrides} {p : Plan}

/-- The merged ids are what a user wrote once more. -/
theorem settled_of_resolve (h : resolve cfg o = .ok p) :
    ∀ id ∈ p.invocation.ignore.ids, id.Settled := by
  have hobeyed := fault?_eq_none_iff.mp (resolve_ok_iff.mp ⟨p, h⟩)
  have hcut : ∀ raw, ¬ Text.IsBlank raw → (AdvisoryId.cut raw).Settled := by
    intro raw hraw
    rw [← Text.isBlank_iff, Bool.not_eq_true] at hraw
    exact AdvisoryId.settled_cut hraw
  obtain ⟨-, preset, hpreset, hinv⟩ := resolve_ok h
  rw [hinv]
  intro id hid
  replace hid : id ∈ ((preset.merge (cfg.ignore.map .cut)).merge (o.ignore.map .cut)).ids := hid
  rw [ids_merge_supplied hpreset, List.mem_eraseDups, supplied] at hid
  simp only [List.mem_append, List.mem_map] at hid
  rcases hid with (hid | ⟨raw, hraw, rfl⟩) | ⟨raw, hraw, rfl⟩
  · exact Preset.settled hpreset id hid
  · exact hcut raw (hobeyed .configIds raw hraw)
  · exact hcut raw (hobeyed .overrideIds raw hraw)

theorem not_isBlank_program (h : resolve cfg o = .ok p) :
    ¬ Text.IsBlank p.invocation.program := by
  have hobeyed := fault?_eq_none_iff.mp (resolve_ok_iff.mp ⟨p, h⟩)
  obtain ⟨-, preset, -, hinv⟩ := resolve_ok h
  rw [hinv]
  cases hcommand : cfg.command with
  | none =>
      show ¬ Text.IsBlank Invocation.defaultProgram
      rw [← Text.isBlank_iff]
      decide +kernel
  | some command => exact hobeyed .command command hcommand

theorem resolve_of_obeyed (h : ∀ r : Rule, r.Obeyed cfg o) :
    ∃ preset, Preset.find? (profileOf cfg o) = some preset
      ∧ resolve cfg o = .ok ⟨profileOf cfg o, cfg.command.getD Invocation.defaultProgram,
          cfg.args.getD Invocation.defaultLeading,
          ⟨(supplied preset cfg o).eraseDups⟩⟩ := by
  obtain ⟨p, hp⟩ := resolve_ok_iff.mpr (fault?_eq_none_iff.mpr h)
  obtain ⟨hprofile, preset, hpreset, hinv⟩ := resolve_ok hp
  rw [hprofile] at hpreset
  refine ⟨preset, hpreset, ?_⟩
  rw [hp, ← ids_merge_supplied hpreset, ← hprofile, ← hinv]

/-- The ids of a plan begin with those of its profile, and there is no
profile without the rest: `none` has no ids at all. -/
theorem preset_isPrefix_of_resolve (h : resolve cfg o = .ok p) {name : String}
    (hname : name = "none" ∨ name = p.profile) :
    ∃ preset, Preset.find? name = some preset ∧ preset.ids <+: p.invocation.ignore.ids := by
  rcases hname with rfl | rfl
  · exact ⟨.empty, by decide +kernel, List.nil_prefix⟩
  · obtain ⟨-, preset, hpreset, hinv⟩ := resolve_ok h
    refine ⟨preset, hpreset, ?_⟩
    rw [hinv]
    exact ids_merge_supplied hpreset cfg o ▸ preset_isPrefix hpreset cfg o

theorem nodup_of_resolve (h : resolve cfg o = .ok p) : p.invocation.ignore.ids.Nodup := by
  obtain ⟨-, preset, hpreset, hinv⟩ := resolve_ok h
  rw [hinv]
  exact ids_merge_supplied hpreset cfg o ▸ nodup_eraseDups _

/-- The configuration that a plan is written down as. -/
def frozen (inv : Invocation) (profile : Option String) (ignore : List String) : Config where
  profile := profile
  command := some inv.program
  args := some (inv.args.take (inv.args.length - 2 * inv.ignore.length))
  ignore := ignore

theorem obeyed_frozen {inv : Invocation} {configured given : List String}
    {inConfig onLine : Option String} (hprogram : ¬ Text.IsBlank inv.program)
    (hvisible : ∀ s ∈ configured ++ given, ¬ Text.IsBlank s)
    (hprofile : (onLine.or inConfig).getD "default" ∈ Preset.names) (r : Rule) :
    r.Obeyed (frozen inv inConfig configured) ⟨onLine, given⟩ := by
  cases r with
  | schema => exact fun _ hschema => nomatch hschema
  | profile => exact hprofile
  | configIds => exact fun s hs => hvisible s (List.mem_append_left _ hs)
  | overrideIds => exact fun s hs => hvisible s (List.mem_append_right _ hs)
  | command =>
      intro command hcommand
      obtain rfl := Option.some.inj hcommand
      exact hprogram

/-- **A plan can be frozen.** Write down the program of a plan, its leading
arguments and its ids, the ids split at any place between configuration and
overrides, and name its profile or `none` in either of them: this resolves,
and to the very invocation of the plan. -/
theorem resolve_frozen_plan (h : resolve cfg o = .ok p) {configured given : List String}
    (hids : p.invocation.ignore.texts = configured ++ given) {name : String}
    (hname : name = "none" ∨ name = p.profile) {inConfig onLine : Option String}
    (hset : inConfig = some name ∧ onLine = none ∨ inConfig = none ∧ onLine = some name) :
    resolve (frozen p.invocation inConfig configured) ⟨onLine, given⟩
      = .ok ⟨name, p.invocation⟩ := by
  have hsettled := settled_of_resolve h
  obtain ⟨preset, hpreset, hprefix⟩ := preset_isPrefix_of_resolve h hname
  have hprofile : (onLine.or inConfig).getD "default" = name := by
    rcases hset with ⟨rfl, rfl⟩ | ⟨rfl, rfl⟩ <;> rfl
  have hknown : name ∈ Preset.names := by
    by_contra hnot
    rw [Preset.find?_eq_none_iff.mpr hnot] at hpreset
    cases hpreset
  have hvisible : ∀ s ∈ configured ++ given, ¬ Text.IsBlank s := by
    intro s hs
    rw [← hids] at hs
    obtain ⟨id, hid, rfl⟩ := List.mem_map.mp hs
    rw [← Text.isBlank_iff, (hsettled id hid).visible]
    exact Bool.false_ne_true
  obtain ⟨preset', hpreset', hresolve⟩ :=
    resolve_of_obeyed (obeyed_frozen (not_isBlank_program h) hvisible (hprofile ▸ hknown))
  have hinForce : profileOf (frozen p.invocation inConfig configured) ⟨onLine, given⟩ = name :=
    hprofile
  rw [hinForce] at hpreset' hresolve
  obtain rfl := Option.some.inj (hpreset.symm.trans hpreset')
  -- The preset comes first once more, and then all ids of the plan.
  have hsupplied : supplied preset (frozen p.invocation inConfig configured) ⟨onLine, given⟩
      = preset.ids ++ p.invocation.ignore.ids := by
    show preset.ids ++ configured.map .cut ++ given.map .cut = _
    rw [List.append_assoc, ← List.map_append, ← hids, IgnoreList.map_cut_texts hsettled]
  rw [hresolve, hsupplied, eraseDups_append_of_prefix (nodup_of_resolve h) hprefix]
  show Except.ok (⟨name, p.invocation.program,
    p.invocation.args.take (p.invocation.args.length - 2 * p.invocation.ignore.length),
    p.invocation.ignore⟩ : Plan) = _
  rw [p.invocation.leading_eq_take]

/-- Arguments that look like pairs of flag and id are still leading ones,
and blanks inside an id are kept. -/
theorem resolve_frozen_plan_of_look_alikes :
    let cfg : Config :=
      { command := some " x ", args := some ["--ignore", "A"], ignore := ["\tA\u3000b\n", "B"] }
    let ids : List AdvisoryId :=
      [⟨"RUSTSEC-2022-0093"⟩, ⟨"RUSTSEC-2024-0344"⟩, ⟨"A\u3000b"⟩, ⟨"B"⟩]
    let inv : Invocation := ⟨" x ", ["--ignore", "A"], ⟨ids⟩⟩
    resolve cfg {} = .ok ⟨"default", inv⟩
      ∧ resolve (frozen inv none ["RUSTSEC-2022-0093", "RUSTSEC-2024-0344", "A\u3000b"])
        ⟨some "none", ["B"]⟩ = .ok ⟨"none", inv⟩
      ∧ resolve (frozen inv (some "default") []) ⟨none, inv.ignore.texts⟩
        = .ok ⟨"default", inv⟩ := by
  intro cfg ids inv
  have h : resolve cfg {} = .ok ⟨"default", inv⟩ := by decide +kernel
  have hsplit : inv.ignore.texts
      = ["RUSTSEC-2022-0093", "RUSTSEC-2024-0344", "A\u3000b"] ++ ["B"] := rfl
  have hwhole : inv.ignore.texts = [] ++ inv.ignore.texts := rfl
  exact ⟨h, resolve_frozen_plan h hsplit (.inl rfl) (.inr ⟨rfl, rfl⟩),
    resolve_frozen_plan h hwhole (.inr rfl) (.inl ⟨rfl, rfl⟩)⟩

end Plan

end AdvisoryGate
