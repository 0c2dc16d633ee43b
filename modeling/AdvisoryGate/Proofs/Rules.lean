import AdvisoryGate.Proofs.Resolution
import AdvisoryGate.Proofs.Trimming

/-!
# The rules of a resolution

What a resolution asks of a configuration and of the overrides, one rule
for each thing that can be wrong with them. Each rule is said twice: as a
condition (`Rule.Obeyed`), with what is reported where it is broken
(`Rule.Reports`), and as a search for the fault (`Rule.fault?`).

`finds_resolve` turns the chain of fallible steps into one search: the rules
are looked through in a fixed order, and the first fault that is found is
the answer. That the rules are obeyed exactly if there is a plan, and that
the first broken one is reported, then follows from what a search finds
(`resolve_reports_first_broken_rule`).
-/

namespace AdvisoryGate

theorem Preset.find?_eq_none_iff {name : String} : find? name = none ↔ name ∉ names := by
  rw [find?]
  split
  · simp [names, *]
  · split <;> simp [names, *]

namespace Plan

/-! ## Rules -/

/-- What a resolution looks at. -/
inductive Rule
  | schema
  | profile
  | configIds
  | overrideIds
  | command
  deriving DecidableEq, Repr

namespace Rule

/-- The rules in the order in which they are looked at. -/
def inOrder : List Rule := [.schema, .profile, .configIds, .overrideIds, .command]

theorem mem_inOrder (r : Rule) : r ∈ inOrder := by
  cases r <;> decide

section Conditions

variable (cfg : Config) (o : Overrides)

def Obeyed : Rule → Prop
  | .schema => ∀ name, cfg.schema = some name → name = "audit-gate.config.v1"
  | .profile => (o.profile.or cfg.profile).getD "default" ∈ Preset.names
  | .configIds => ∀ raw ∈ cfg.ignore, ¬ Text.IsBlank raw
  | .overrideIds => ∀ raw ∈ o.ignore, ¬ Text.IsBlank raw
  | .command => ∀ command, cfg.command = some command → ¬ Text.IsBlank command

/-- What is reported about a broken rule. Of several blank ids it is the
first one, as it was written. -/
inductive Reports : Rule → ResolveError → Prop
  | schema {name : String} : cfg.schema = some name → Reports .schema (.unsupportedSchema name)
  | profile : Reports .profile (.unknownProfile ((o.profile.or cfg.profile).getD "default"))
  | configIds {before after : List String} {raw : String} :
      cfg.ignore = before ++ raw :: after → (∀ s ∈ before, ¬ Text.IsBlank s) →
        Text.IsBlank raw → Reports .configIds (.blankInConfig ⟨raw⟩)
  | overrideIds {before after : List String} {raw : String} :
      o.ignore = before ++ raw :: after → (∀ s ∈ before, ¬ Text.IsBlank s) →
        Text.IsBlank raw → Reports .overrideIds (.blankOverride ⟨raw⟩)
  | command : Reports .command .blankCommand

/-- Look for a fault. -/
def fault? : Rule → Option ResolveError
  | .schema => cfg.schema.bind fun name =>
    if name = schemaName then none else some (.unsupportedSchema name)
  | .profile =>
    if profileOf cfg o ∈ Preset.names then none else some (.unknownProfile (profileOf cfg o))
  | .configIds => (cfg.ignore.find? Text.isBlank).map fun raw => .blankInConfig ⟨raw⟩
  | .overrideIds => (o.ignore.find? Text.isBlank).map fun raw => .blankOverride ⟨raw⟩
  | .command => cfg.command.bind fun command =>
    if Text.isBlank command then some .blankCommand else none

end Conditions

variable {cfg : Config} {o : Overrides}

theorem find?_isBlank_eq_none_iff {raws : List String} :
    raws.find? Text.isBlank = none ↔ ∀ raw ∈ raws, ¬ Text.IsBlank raw := by
  simp only [List.find?_eq_none, Text.isBlank_iff]

theorem find?_isBlank_eq_some_iff {raws : List String} {raw : String} :
    raws.find? Text.isBlank = some raw ↔ Text.IsBlank raw
      ∧ ∃ before after, raws = before ++ raw :: after ∧ ∀ s ∈ before, ¬ Text.IsBlank s := by
  simp only [List.find?_eq_some_iff_append, Text.isBlank_iff, Bool.not_eq_true',
    ← Bool.not_eq_true]

theorem fault?_eq_none_iff {r : Rule} : r.fault? cfg o = none ↔ r.Obeyed cfg o := by
  cases r with
  | schema =>
      simp only [fault?, Option.bind_eq_none_iff, ite_eq_left_iff, reduceCtorEq, imp_false,
        not_not]
      rfl
  | profile =>
      simp only [fault?, ite_eq_left_iff, reduceCtorEq, imp_false, not_not]
      rfl
  | configIds | overrideIds =>
      simp only [fault?, Option.map_eq_none_iff, find?_isBlank_eq_none_iff]
      rfl
  | command =>
      simp only [fault?, Option.bind_eq_none_iff, ite_eq_right_iff, reduceCtorEq, imp_false,
        Text.isBlank_iff]
      rfl

theorem reports_of_fault? {r : Rule} {e : ResolveError} (h : r.fault? cfg o = some e) :
    r.Reports cfg o e := by
  cases r with
  | schema =>
      obtain ⟨name, hname, h⟩ := Option.bind_eq_some_iff.mp h
      split at h
      · cases h
      · obtain rfl := Option.some.inj h
        exact .schema hname
  | profile =>
      rw [fault?] at h
      split at h
      · cases h
      · obtain rfl := Option.some.inj h
        exact .profile
  | configIds =>
      obtain ⟨raw, hraw, rfl⟩ := Option.map_eq_some_iff.mp h
      obtain ⟨hblank, before, after, heq, hbefore⟩ := find?_isBlank_eq_some_iff.mp hraw
      exact .configIds heq hbefore hblank
  | overrideIds =>
      obtain ⟨raw, hraw, rfl⟩ := Option.map_eq_some_iff.mp h
      obtain ⟨hblank, before, after, heq, hbefore⟩ := find?_isBlank_eq_some_iff.mp hraw
      exact .overrideIds heq hbefore hblank
  | command =>
      obtain ⟨command, -, h⟩ := Option.bind_eq_some_iff.mp h
      split at h
      · obtain rfl := Option.some.inj h
        exact .command
      · cases h

theorem Reports.unique {r : Rule} {e e' : ResolveError} (h : r.Reports cfg o e)
    (h' : r.Reports cfg o e') : e = e' := by
  cases h with
  | schema hname =>
      cases h' with
      | schema hname' => rw [Option.some.inj (hname.symm.trans hname')]
  | profile => cases h'; rfl
  | configIds heq hbefore hblank =>
      cases h' with
      | configIds heq' hbefore' hblank' =>
          have hfound := find?_isBlank_eq_some_iff.mpr ⟨hblank, _, _, heq, hbefore⟩
          have hfound' := find?_isBlank_eq_some_iff.mpr ⟨hblank', _, _, heq', hbefore'⟩
          rw [Option.some.inj (hfound.symm.trans hfound')]
  | overrideIds heq hbefore hblank =>
      cases h' with
      | overrideIds heq' hbefore' hblank' =>
          have hfound := find?_isBlank_eq_some_iff.mpr ⟨hblank, _, _, heq, hbefore⟩
          have hfound' := find?_isBlank_eq_some_iff.mpr ⟨hblank', _, _, heq', hbefore'⟩
          rw [Option.some.inj (hfound.symm.trans hfound')]
  | command => cases h'; rfl

theorem fault?_eq_some_iff {r : Rule} {e : ResolveError} :
    r.fault? cfg o = some e ↔ ¬ r.Obeyed cfg o ∧ r.Reports cfg o e := by
  rw [← fault?_eq_none_iff]
  constructor
  · intro h
    exact ⟨by simp [h], reports_of_fault? h⟩
  · rintro ⟨hbroken, hreports⟩
    obtain ⟨e', he'⟩ := Option.ne_none_iff_exists'.mp hbroken
    rw [he', hreports.unique (reports_of_fault? he')]

end Rule

/-! ## The search -/

/-- A step stops at the fault if there is one, and passes otherwise. -/
def Finds {ε α : Type} (x : Except ε α) : Option ε → Prop
  | some e => x = .error e
  | none => ∃ a, x = .ok a

section Steps

variable {ε ε' α β : Type}

theorem Finds.ok (a : α) : Finds (.ok a : Except ε α) none := ⟨a, rfl⟩

/-- What follows a step is looked at only if the step has passed. -/
theorem Finds.bind {x : Except ε α} {next : α → Except ε β} {f g : Option ε} (hx : Finds x f)
    (hnext : ∀ a, Finds (next a) g) : Finds (x >>= next) (f.or g) := by
  cases f with
  | some e =>
      obtain rfl : x = .error e := hx
      rfl
  | none =>
      obtain ⟨a, rfl⟩ : ∃ a, x = .ok a := hx
      exact hnext a

theorem Finds.map {x : Except ε α} {f : Option ε} (hx : Finds x f) (g : α → β) :
    Finds (x.map g) f := by
  cases f with
  | some e =>
      obtain rfl : x = .error e := hx
      rfl
  | none =>
      obtain ⟨a, rfl⟩ : ∃ a, x = .ok a := hx
      exact ⟨g a, rfl⟩

theorem Finds.mapError {x : Except ε α} {f : Option ε} (hx : Finds x f) (g : ε → ε') :
    Finds (x.mapError g) (f.map g) := by
  cases f with
  | some e =>
      obtain rfl : x = .error e := hx
      rfl
  | none =>
      obtain ⟨a, rfl⟩ : ∃ a, x = .ok a := hx
      exact ⟨a, rfl⟩

end Steps

variable {cfg : Config} {o : Overrides}

theorem finds_schema : Finds (checkSchema cfg.schema) (Rule.schema.fault? cfg o) := by
  rw [Rule.fault?]
  cases cfg.schema with
  | none => exact .ok ()
  | some name =>
      rw [checkSchema, Option.bind_some]
      split
      · exact .ok ()
      · rfl

theorem finds_profile : Finds (presetOf (profileOf cfg o)) (Rule.profile.fault? cfg o) := by
  rw [Rule.fault?, presetOf]
  cases hpreset : Preset.find? (profileOf cfg o) with
  | some l =>
      have hmem : profileOf cfg o ∈ Preset.names := by
        by_contra hnot
        rw [Preset.find?_eq_none_iff.mpr hnot] at hpreset
        cases hpreset
      rw [if_pos hmem]
      exact .ok l
  | none =>
      rw [if_neg (Preset.find?_eq_none_iff.mp hpreset)]
      rfl

theorem finds_ids (l : IgnoreList) (raws : List String) :
    Finds (l.extendUnique raws) ((raws.find? Text.isBlank).map .mk) := by
  rw [IgnoreList.extendUnique_eq]
  cases raws.find? Text.isBlank with
  | some raw => rfl
  | none => exact .ok _

theorem finds_command (ignore : IgnoreList) :
    Finds (invocationOf cfg ignore) (Rule.command.fault? cfg o) := by
  rw [invocationOf_eq, Rule.fault?]
  refine Finds.map ?_ _
  cases cfg.command with
  | none => exact .ok _
  | some command =>
      rw [programOf, Option.bind_some]
      split
      · rfl
      · exact .ok _

/-- The first fault in the order of the rules. -/
def fault? (cfg : Config) (o : Overrides) : Option ResolveError :=
  Rule.inOrder.findSome? (Rule.fault? cfg o)

theorem fault?_eq_or (cfg : Config) (o : Overrides) :
    fault? cfg o = (Rule.schema.fault? cfg o).or ((Rule.profile.fault? cfg o).or
      ((Rule.configIds.fault? cfg o).or ((Rule.overrideIds.fault? cfg o).or
        ((Rule.command.fault? cfg o).or none)))) := by
  have hcons (r : Rule) (rs : List Rule) : (r :: rs).findSome? (Rule.fault? cfg o)
      = (r.fault? cfg o).or (rs.findSome? (Rule.fault? cfg o)) := by
    rw [List.findSome?_cons]
    cases r.fault? cfg o <;> rfl
  simp only [fault?, Rule.inOrder, hcons, List.findSome?_nil]

/-- A resolution is a search for the first fault. -/
theorem finds_resolve (cfg : Config) (o : Overrides) : Finds (resolve cfg o) (fault? cfg o) := by
  have hconfig (l : IgnoreList) := (finds_ids l cfg.ignore).mapError ResolveError.blankInConfig
  have hoverride (l : IgnoreList) := (finds_ids l o.ignore).mapError ResolveError.blankOverride
  simp only [Option.map_map, Function.comp_def] at hconfig hoverride
  rw [fault?_eq_or]
  refine finds_schema.bind fun _ => ?_
  refine finds_profile.bind fun preset => ?_
  refine (hconfig preset).bind fun listed => ?_
  refine (hoverride listed).bind fun ignore => ?_
  exact (finds_command ignore).bind fun inv => .ok _

/-- What the search finds is the first broken rule. -/
theorem fault?_eq_none_iff : fault? cfg o = none ↔ ∀ r : Rule, r.Obeyed cfg o := by
  simp only [fault?, List.findSome?_eq_none_iff, Rule.fault?_eq_none_iff, Rule.mem_inOrder,
    true_implies]

theorem fault?_eq_some_iff {e : ResolveError} : fault? cfg o = some e ↔
    ∃ earlier r later, Rule.inOrder = earlier ++ r :: later
      ∧ (∀ s ∈ earlier, s.Obeyed cfg o) ∧ ¬ r.Obeyed cfg o ∧ r.Reports cfg o e := by
  simp only [fault?, List.findSome?_eq_some_iff, Rule.fault?_eq_some_iff,
    Rule.fault?_eq_none_iff]
  constructor
  · rintro ⟨earlier, r, later, hsplit, hbroken, hearlier⟩
    exact ⟨earlier, r, later, hsplit, hearlier, hbroken⟩
  · rintro ⟨earlier, r, later, hsplit, hearlier, hbroken⟩
    exact ⟨earlier, r, later, hsplit, hbroken, hearlier⟩

theorem resolve_ok_iff : (∃ p, resolve cfg o = .ok p) ↔ fault? cfg o = none := by
  have h := finds_resolve cfg o
  cases hfault : fault? cfg o with
  | some e =>
      rw [hfault] at h
      obtain h : resolve cfg o = .error e := h
      simp [h]
  | none =>
      rw [hfault] at h
      exact iff_of_true h rfl

theorem resolve_error_iff {e : ResolveError} :
    resolve cfg o = .error e ↔ fault? cfg o = some e := by
  have h := finds_resolve cfg o
  cases hfault : fault? cfg o with
  | some e' =>
      rw [hfault] at h
      obtain h : resolve cfg o = .error e' := h
      simp [h]
  | none =>
      rw [hfault] at h
      obtain ⟨p, h⟩ : ∃ p, resolve cfg o = .ok p := h
      simp [h]

/-- **The first broken rule is reported.** There is a plan exactly if every
rule is obeyed, and otherwise the error is that of the first rule, in their
order, that is broken; a blank id is repeated as it was written. A profile
of the command line makes that of the configuration irrelevant. -/
theorem resolve_reports_first_broken_rule (cfg : Config) (o : Overrides) :
    ((∃ p, resolve cfg o = .ok p) ↔ ∀ r : Rule, r.Obeyed cfg o)
      ∧ (∀ e, resolve cfg o = .error e ↔
        ∃ earlier r later, Rule.inOrder = earlier ++ r :: later
          ∧ (∀ s ∈ earlier, s.Obeyed cfg o) ∧ ¬ r.Obeyed cfg o ∧ r.Reports cfg o e)
      ∧ (∀ id : BlankId,
        (ResolveError.blankInConfig id).message = "invalid ignore entry in config: " ++ id.message
          ∧ (ResolveError.blankOverride id).message = "invalid --ignore value: " ++ id.message)
      ∧ ∀ name, o.profile = some name →
        ∀ profile, resolve { cfg with profile := profile } o = resolve cfg o := by
  refine ⟨?_, ?_, fun id => ⟨rfl, rfl⟩, ?_⟩
  · rw [resolve_ok_iff, fault?_eq_none_iff]
  · intro e
    rw [resolve_error_iff, fault?_eq_some_iff]
  · intro name hname profile
    have hprofile : profileOf { cfg with profile := profile } o = profileOf cfg o := by
      rw [profileOf, profileOf, hname]
      rfl
    rw [resolve, resolve, hprofile]
    rfl

end Plan

end AdvisoryGate
