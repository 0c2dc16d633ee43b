import AdvisoryGate.Proofs.Fields
import AdvisoryGate.Proofs.TableContent
import AdvisoryGate.Proofs.TextOrder

/-!
# What is reported about a document that does not fit

A document is a configuration if every entry of its table fits. If some do
not, one of them is reported: the one with the least key. What is wrong with
an entry is said by a relation of its own (`Offends`), apart from the
decoder: a key that is no field is wrong whatever its value is; otherwise it
is the value, or the first item of an array that is no string.

`parse_reports_least_misfit` says which texts are decoded and to what, which
fault is found in all others, and that no order of the entries, no place and
no spelling of theirs changes the outcome.
-/

namespace AdvisoryGate.Config

open Toml (Entries Alike SameTable)

/-! ## What is wrong with an entry -/

/-- What messages call the type of a value. -/
def typeName : Toml.Value → String
  | .string _ => "string"
  | .integer _ => "integer"
  | .real _ => "floating point"
  | .boolean _ => "boolean"
  | .moment | .table _ _ => "map"
  | .array _ _ => "sequence"

/-- The problem tells the type of the value and what is expected in its
place; of a number too large to represent it tells just that. -/
inductive Tells (v : Toml.Value) (expected : Shape) : Problem → Prop
  | integer : v = .integer none → Tells v expected .integerOverflow
  | real : v = .real .overflow → Tells v expected .realOverflow
  | type (detail : String) : v ≠ .integer none → v ≠ .real .overflow →
      Tells v expected (.wrongType (typeName v ++ detail) expected)

/-- What is wrong with a value that a field of some shape cannot have, and
where. -/
inductive Mistyped (v : Toml.Located Toml.Value) : Shape → Fault → Prop
  | noString : (∀ s, v.value ≠ .string s) →
      Mistyped v .string ⟨wrongType v.value .string, v.span⟩
  | noArray : (∀ kind items, v.value ≠ .array kind items) →
      Mistyped v .sequence ⟨wrongType v.value .sequence, v.span⟩
  | item {kind : Toml.ArrayKind} {before after : List (Toml.Located Toml.Value)}
      {x : Toml.Located Toml.Value} : v.value = .array kind (before ++ x :: after) →
      (∀ y ∈ before, ∃ s, y.value = .string s) → (∀ s, x.value ≠ .string s) →
        Mistyped v .sequence ⟨wrongType x.value .string, x.span⟩

/-- What is wrong with an entry. -/
inductive Offends : Toml.Key × Toml.Located Toml.Value → Fault → Prop
  | unknown {k : Toml.Key} {v : Toml.Located Toml.Value} : (∀ f : Field, k.name ≠ f.name) →
      Offends (k, v) ⟨.unknownField k.name, k.span⟩
  | mistyped {k : Toml.Key} {v : Toml.Located Toml.Value} {f : Field} {fault : Fault} :
      k.name = f.name → Mistyped v f.shape fault → Offends (k, v) fault

/-- The problem that is found with a value tells its type. -/
theorem tells_wrongType (v : Toml.Value) (expected : Shape) :
    Tells v expected (wrongType v expected) := by
  have htype : ∀ {found : String} (detail : String), found = typeName v ++ detail →
      v ≠ .integer none → v ≠ .real .overflow →
      Tells v expected (.wrongType found expected) := by
    rintro found detail rfl hinteger hreal
    exact .type detail hinteger hreal
  cases v with
  | string s =>
      refine htype (" " ++ Text.quoted s) ?_ nofun nofun
      rw [← String.append_assoc]
      rfl
  | integer n =>
      cases n with
      | none => exact .integer rfl
      | some n =>
          refine htype (" `" ++ toString n ++ "`" ++ integerFormat n) ?_ nofun nofun
          simp only [← String.append_assoc]
          rfl
  | real x =>
      have hfound : "floating point `" ++ describeReal x ++ "`"
          = "floating point" ++ (" `" ++ describeReal x ++ "`") := by
        simp only [← String.append_assoc]
        rfl
      cases x with
      | overflow => exact .real rfl
      | nan | infinite _ | finite _ _ => exact htype _ hfound nofun nofun
  | boolean b =>
      refine htype (" `" ++ toString b ++ "`") ?_ nofun nofun
      simp only [← String.append_assoc]
      rfl
  | moment | array _ _ | table _ _ =>
      exact htype "" String.append_empty.symm nofun nofun

section Entry

variable {cfg : Config} {k : Toml.Key} {v : Toml.Located Toml.Value} {fault : Fault}

theorem stringOf_error_iff : stringOf v = .error fault ↔ Mistyped v .string fault := by
  rw [stringOf]
  split
  · rename_i s hs
    constructor
    · intro h
      cases h
    · rintro ⟨hnot⟩
      exact absurd hs (hnot s)
  · rename_i hnot
    constructor
    · intro h
      cases h
      exact .noString hnot
    · rintro ⟨-⟩
      rfl

theorem stringsOf_error_iff : stringsOf v = .error fault ↔ Mistyped v .sequence fault := by
  rw [stringsOf]
  split
  · rename_i kind items hv
    rw [mapM_error_iff]
    simp only [stringOf_ok_iff, stringOf_error_iff]
    constructor
    · rintro ⟨before, x, after, rfl, hbefore, ⟨hx⟩⟩
      exact .item hv hbefore hx
    · intro h
      cases h with
      | noArray hnot => exact absurd hv (hnot kind items)
      | item hv' hbefore hx =>
          obtain ⟨-, rfl⟩ := Toml.Value.array.inj (hv.symm.trans hv')
          exact ⟨_, _, _, rfl, hbefore, .noString hx⟩
  · rename_i hnot
    constructor
    · intro h
      cases h
      exact .noArray hnot
    · intro h
      cases h with
      | noArray => rfl
      | item hv => exact absurd hv (hnot _ _)

theorem enter_field_error_iff {f : Field} (hk : k.name = f.name) :
    cfg.enter k v = .error fault ↔ Mistyped v f.shape fault := by
  cases f <;>
    simp only [enter, hk, Field.name, map_error_iff, stringOf_error_iff, stringsOf_error_iff] <;>
    rfl

theorem enter_unknown (hk : ∀ f : Field, k.name ≠ f.name) :
    cfg.enter k v = .error ⟨.unknownField k.name, k.span⟩ := by
  rw [enter]
  split
  · exact absurd ‹_› (hk .schema)
  · exact absurd ‹_› (hk .profile)
  · exact absurd ‹_› (hk .command)
  · exact absurd ‹_› (hk .args)
  · exact absurd ‹_› (hk .ignore)
  · rfl

/-- An entry is refused for what is wrong with it, whatever has been entered
before. -/
theorem enter_error_iff : cfg.enter k v = .error fault ↔ Offends (k, v) fault := by
  constructor
  · intro h
    by_cases hk : ∃ f : Field, k.name = f.name
    · obtain ⟨f, hf⟩ := hk
      exact .mistyped hf ((enter_field_error_iff hf).mp h)
    · have hunknown : ∀ f : Field, k.name ≠ f.name := fun f hf => hk ⟨f, hf⟩
      rw [enter_unknown hunknown] at h
      cases h
      exact .unknown hunknown
  · intro h
    cases h with
    | unknown hk => exact enter_unknown hk
    | mistyped hf hv => exact (enter_field_error_iff hf).mpr hv

end Entry

section Offence

variable {e : Toml.Key × Toml.Located Toml.Value} {fault fault' : Fault}

/-- Of an entry that does not fit something is wrong, and one thing only. -/
theorem Offends.unique (h : Offends e fault) (h' : Offends e fault') : fault = fault' := by
  have herror := (@enter_error_iff {} _ _ _).mpr h
  have herror' := (@enter_error_iff {} _ _ _).mpr h'
  exact Except.error.inj (herror.symm.trans herror')

theorem not_fits_iff : ¬ Fits e ↔ ∃ fault, Offends e fault := by
  have hfits : Fits e ↔ ∃ cfg', enter {} e.1 e.2 = .ok cfg' := by
    simp only [enter_ok_iff]
    constructor
    · rintro ⟨f, hf, c, hc⟩
      exact ⟨_, f, hf, c, hc, rfl⟩
    · rintro ⟨cfg', f, hf, c, hc, -⟩
      exact ⟨f, hf, c, hc⟩
  have hoffends : ∀ fault, Offends e fault ↔ enter {} e.1 e.2 = .error fault :=
    fun fault => enter_error_iff.symm
  simp only [hfits, hoffends]
  cases enter {} e.1 e.2 <;> simp

theorem fits_iff : Fits e ↔ ∀ fault, ¬ Offends e fault := by
  rw [← not_exists, ← not_fits_iff, not_not]

end Offence

/-! ## Whole tables -/

/-- The entry does not fit, and no entry with a lesser key is as bad. -/
structure LeastMisfit (es : Entries) (e : Toml.Key × Toml.Located Toml.Value) : Prop where
  mem : e ∈ es
  misfit : ¬ Fits e
  least : ∀ e' ∈ es, ¬ Fits e' → ¬ Text.Precedes e'.1.name e.1.name

/-- The configuration says exactly what the table says. -/
structure Holds (m : Config) (es : Entries) : Prop where
  agree : ∀ e ∈ es, Agrees m e
  rest : ∀ f : Field, (¬ ∃ e ∈ es, e.1.name = f.name) → m.get f = ({} : Config).get f

section Table

variable {es : Entries} {m : Config} {fault : Fault}

theorem pairwise_inKeyOrder (es : Entries) :
    (inKeyOrder es).Pairwise fun e e' => ¬ Text.Precedes e'.1.name e.1.name := by
  have hsorted := @List.pairwise_mergeSort (Toml.Key × Toml.Located Toml.Value)
    (fun e e' => (Text.order e.1.name e'.1.name).isLE)
    (fun _ _ _ => Text.order_isLE_trans) (fun _ _ => Text.order_isLE_total _ _) es
  exact hsorted.imp Text.order_isLE_iff.mp

/-- Decoding stops at an entry that does not fit; it is a least one. -/
theorem leastMisfit_of_decode (h : decode es = .error fault) :
    ∃ e, LeastMisfit es e ∧ Offends e fault := by
  obtain ⟨before, e, after, heq, hbefore, he⟩ :=
    (foldlM_error_iff (fun cfg e fault => enter_error_iff (k := e.1) (v := e.2))).mp h
  have hmem : ∀ {e'}, e' ∈ es ↔ e' ∈ before ∨ e' = e ∨ e' ∈ after := by
    intro e'
    rw [← mem_inKeyOrder, heq, List.mem_append, List.mem_cons]
  have hsorted := pairwise_inKeyOrder es
  rw [heq, List.pairwise_append, List.pairwise_cons] at hsorted
  refine ⟨e, ⟨hmem.mpr (.inr (.inl rfl)), not_fits_iff.mpr ⟨fault, he⟩, ?_⟩, he⟩
  intro e' he' hmisfit
  rcases hmem.mp he' with he' | rfl | he'
  · exact absurd (fits_iff.mpr (hbefore e' he')) hmisfit
  · exact Text.Precedes.irrefl _
  · exact hsorted.2.1.1 e' he'

theorem LeastMisfit.unique (honce : es.KeysOnce) {e e' : Toml.Key × Toml.Located Toml.Value}
    (h : LeastMisfit es e) (h' : LeastMisfit es e') : e = e' := by
  rcases Text.Precedes.trichotomy e.1.name e'.1.name with hlt | heq | hgt
  · exact absurd hlt (h'.least e h.mem h.misfit)
  · exact honce.eq_of_mem h.mem h'.mem heq
  · exact absurd hgt (h.least e' h'.mem h'.misfit)

theorem decode_error_iff (honce : es.KeysOnce) :
    decode es = .error fault ↔ ∃ e, LeastMisfit es e ∧ Offends e fault := by
  refine ⟨leastMisfit_of_decode, ?_⟩
  rintro ⟨e, hleast, he⟩
  cases hdecode : decode es with
  | ok m => exact absurd (decode_ok_iff.mp ⟨m, hdecode⟩ e hleast.mem) hleast.misfit
  | error fault' =>
      obtain ⟨e', hleast', he'⟩ := leastMisfit_of_decode hdecode
      obtain rfl := hleast.unique honce hleast'
      rw [he.unique he']

/-- What entering a table whose keys stand there once leaves behind: each
entry is agreed with, and no other field has changed. -/
theorem agrees_of_foldlM_enter : ∀ {es : Entries} {cfg cfg' : Config}, es.KeysOnce →
    es.foldlM (fun cfg e => cfg.enter e.1 e.2) cfg = .ok cfg' →
      (∀ e ∈ es, Agrees cfg' e)
      ∧ ∀ f : Field, (¬ ∃ e ∈ es, e.1.name = f.name) → cfg'.get f = cfg.get f
  | [], cfg, cfg', _, h => by
      obtain rfl := Except.ok.inj h
      exact ⟨List.forall_mem_nil _, fun _ _ => rfl⟩
  | e :: es, cfg, cfg', honce, h => by
      rw [List.foldlM_cons, bind_ok_iff] at h
      obtain ⟨cfg₁, he, hes⟩ := h
      obtain ⟨hnew, honce⟩ := List.nodup_cons.mp honce
      obtain ⟨f, hf, c, hc, rfl⟩ := enter_ok_iff.mp he
      obtain ⟨hagree, hrest⟩ := agrees_of_foldlM_enter honce hes
      constructor
      · rw [List.forall_mem_cons]
        refine ⟨⟨f, hf, c, hc, ?_⟩, hagree⟩
        rw [hrest f, get_set]
        rintro ⟨e', he', hname⟩
        exact hnew (List.mem_map.mpr ⟨e', he', hname.trans hf.symm⟩)
      · intro g hg
        have hne : g ≠ f := by
          rintro rfl
          exact hg ⟨e, List.mem_cons_self .., hf⟩
        rw [hrest g fun ⟨e', he', hname⟩ => hg ⟨e', List.mem_cons_of_mem _ he', hname⟩,
          get_set_ne _ _ hne]

theorem decode_eq_ok_iff (honce : es.KeysOnce) : decode es = .ok m ↔ Holds m es := by
  constructor
  · intro h
    have hperm : (inKeyOrder es).Perm es := List.mergeSort_perm ..
    have hsorted : (inKeyOrder es).KeysOnce := (hperm.map _).nodup_iff.mpr honce
    obtain ⟨hagree, hrest⟩ := agrees_of_foldlM_enter hsorted h
    simp only [mem_inKeyOrder] at hagree hrest
    exact ⟨hagree, hrest⟩
  · intro h
    exact decode_of_agrees h.agree h.rest

end Table

/-! ## Tables that say the same -/

section Alike

theorem wrongType_of_alike {v v' : Toml.Value} (h : Alike v v') (expected : Shape) :
    wrongType v' expected = wrongType v expected := by
  cases h <;> rfl

/-- Items are strings if those that they are like are. -/
theorem map_value_of_alike {items items' : List (Toml.Located Toml.Value)}
    (h : List.Forall₂ (fun x x' => Alike x.value x'.value) items items') :
    ∀ {l : List String}, items.map (·.value) = l.map .string →
      items'.map (·.value) = l.map .string := by
  induction h with
  | nil => exact id
  | cons hx _ ih =>
      intro l hl
      cases l with
      | nil => cases hl
      | cons s l =>
          obtain ⟨hs, hl⟩ := List.cons.inj hl
          rw [List.map_cons, List.map_cons, ih hl, hx.string_iff.mpr hs]

theorem Denotes.of_alike {v v' : Toml.Value} (h : Alike v v') {shape : Shape}
    {c : shape.Content} (hc : Denotes v shape c) : Denotes v' shape c := by
  cases shape with
  | string => exact h.string_iff.mpr hc
  | sequence =>
      obtain ⟨kind, items, rfl, hitems⟩ := hc
      cases h with
      | array h => exact ⟨_, _, rfl, map_value_of_alike h hitems⟩

theorem Mistyped.of_alike {v v' : Toml.Located Toml.Value} (h : Alike v.value v'.value)
    {shape : Shape} {fault : Fault} (hfault : Mistyped v shape fault) :
    ∃ fault', Mistyped v' shape fault' ∧ fault'.problem = fault.problem := by
  cases hfault with
  | noString hnot =>
      exact ⟨_, .noString fun s hs => hnot s (h.string_iff.mp hs), wrongType_of_alike h _⟩
  | noArray hnot =>
      refine ⟨_, .noArray fun kind items hv => ?_, wrongType_of_alike h _⟩
      rw [hv] at h
      generalize hvalue : v.value = w at h
      cases h with
      | array => exact hnot _ _ hvalue
  | @item kind before after x hv hbefore hx =>
      rw [hv] at h
      generalize hvalue : v'.value = w at h
      cases h with
      | array h =>
          obtain ⟨before', x', after', rfl, hbefore', hx'⟩ := Toml.exists_append_of_forall₂ h
          refine ⟨_, .item hvalue ?_ fun s hs => hx s (hx'.string_iff.mp hs),
            wrongType_of_alike hx' _⟩
          intro y' hy'
          obtain ⟨y, hy, halike⟩ := Toml.exists_of_mem_right hbefore' y' hy'
          obtain ⟨s, hs⟩ := hbefore y hy
          exact ⟨s, halike.string_iff.mpr hs⟩

variable {e e' : Toml.Key × Toml.Located Toml.Value} (hname : e.1.name = e'.1.name)
  (hvalue : Alike e.2.value e'.2.value)

include hname hvalue

theorem Agrees.of_alike {m : Config} (h : Agrees m e) : Agrees m e' := by
  obtain ⟨f, hf, c, hc, hm⟩ := h
  exact ⟨f, hname.symm.trans hf, c, hc.of_alike hvalue, hm⟩

theorem Offends.of_alike {fault : Fault} (h : Offends e fault) :
    ∃ fault', Offends e' fault' ∧ fault'.problem = fault.problem := by
  obtain ⟨k', v'⟩ := e'
  cases h with
  | unknown hk => exact ⟨_, .unknown fun f hf => hk f (hname.trans hf), by rw [hname]⟩
  | mistyped hf hv =>
      obtain ⟨fault', hfault', hproblem⟩ := hv.of_alike hvalue
      exact ⟨fault', .mistyped (hname.symm.trans hf) hfault', hproblem⟩

end Alike

section SameTable

variable {es es' : Entries} (hsame : SameTable es es')

include hsame

theorem Holds.of_sameTable {m : Config} (h : Holds m es) : Holds m es' where
  agree := by
    intro e' he'
    obtain ⟨e, he, hname, hvalue⟩ := hsame.entries.2 e' he'
    exact (h.agree e he).of_alike hname hvalue
  rest := by
    intro f hf
    refine h.rest f fun ⟨e, he, hfield⟩ => ?_
    obtain ⟨e', he', hname, -⟩ := hsame.entries.1 e he
    exact hf ⟨e', he', hname.symm.trans hfield⟩

theorem LeastMisfit.of_sameTable {e : Toml.Key × Toml.Located Toml.Value}
    (h : LeastMisfit es e) : ∃ e', LeastMisfit es' e' ∧ e.1.name = e'.1.name
      ∧ Alike e.2.value e'.2.value := by
  obtain ⟨e', he', hname, hvalue⟩ := hsame.entries.1 e h.mem
  refine ⟨e', ⟨he', ?_, ?_⟩, hname, hvalue⟩
  · obtain ⟨fault, hfault⟩ := not_fits_iff.mp h.misfit
    obtain ⟨fault', hfault', -⟩ := hfault.of_alike hname hvalue
    exact not_fits_iff.mpr ⟨fault', hfault'⟩
  · intro e₁' he₁' hmisfit hprecedes
    obtain ⟨e₁, he₁, hname₁, hvalue₁⟩ := hsame.entries.2 e₁' he₁'
    rw [← hname, ← hname₁] at hprecedes
    refine h.least e₁ he₁ (fun hfits => hmisfit ?_) hprecedes
    obtain ⟨f, hf, c, hc⟩ := hfits
    exact ⟨f, hname₁.symm.trans hf, c, hc.of_alike hvalue₁⟩

end SameTable

/-! ## Texts -/

/-- What reading a text comes to: a configuration, or a key and what is wrong
there. -/
inductive Outcome (text : String) : Except (String × Problem) Config → Prop
  | model {m : Config} : parse text = .ok m → Outcome text (.ok m)
  | misfit {es : Entries} {e : Toml.Key × Toml.Located Toml.Value} {fault : Fault} :
      Toml.parse? text.toList = some es → LeastMisfit es e →
      parse text = .error (.misfit fault) → Outcome text (.error (e.1.name, fault.problem))

section Texts

variable {text text' : String} {es es' : Entries} (hes : Toml.parse? text.toList = some es)

include hes

theorem parse_of_table : parse text = (decode es).mapError .misfit := by
  rw [parse, hes]

theorem parse_eq_ok_iff {m : Config} : parse text = .ok m ↔ Holds m es := by
  rw [parse_of_table hes, mapError_ok_iff, decode_eq_ok_iff (Toml.parse?_keysOnce hes)]

theorem parse_error_iff {error : Error} : parse text = .error error ↔
    ∃ e fault, LeastMisfit es e ∧ Offends e fault ∧ error = .misfit fault := by
  rw [parse_of_table hes, mapError_error_iff]
  simp only [decode_error_iff (Toml.parse?_keysOnce hes)]
  constructor
  · rintro ⟨fault, ⟨e, hleast, he⟩, rfl⟩
    exact ⟨e, fault, hleast, he, rfl⟩
  · rintro ⟨e, fault, hleast, he, rfl⟩
    exact ⟨fault, ⟨e, hleast, he⟩, rfl⟩

theorem Outcome.unique {o o' : Except (String × Problem) Config} (h : Outcome text o)
    (h' : Outcome text o') : o = o' := by
  cases h with
  | model hm =>
      cases h' with
      | model hm' => rw [Except.ok.inj (hm.symm.trans hm')]
      | misfit _ _ hfault => cases hm.symm.trans hfault
  | misfit hes₁ hleast hfault =>
      cases h' with
      | model hm => cases hm.symm.trans hfault
      | misfit hes₂ hleast' hfault' =>
          obtain rfl := Option.some.inj (hes.symm.trans hes₁)
          obtain rfl := Option.some.inj (hes.symm.trans hes₂)
          obtain rfl := hleast.unique (Toml.parse?_keysOnce hes) hleast'
          cases hfault.symm.trans hfault'
          rfl

/-- Texts whose tables say the same have one outcome. -/
theorem exists_common_outcome (hes' : Toml.parse? text'.toList = some es')
    (hsame : SameTable es es') : ∃ o, Outcome text o ∧ Outcome text' o := by
  cases hparse : parse text with
  | ok m =>
      have hm := (parse_eq_ok_iff hes).mp hparse
      exact ⟨_, .model hparse, .model ((parse_eq_ok_iff hes').mpr (hm.of_sameTable hsame))⟩
  | error error =>
      obtain ⟨e, fault, hleast, he, rfl⟩ := (parse_error_iff hes).mp hparse
      obtain ⟨e', hleast', hname, hvalue⟩ := hleast.of_sameTable hsame
      obtain ⟨fault', he', hproblem⟩ := he.of_alike hname hvalue
      have hparse' := (parse_error_iff hes').mpr ⟨e', fault', hleast', he', rfl⟩
      refine ⟨_, .misfit hes hleast hparse, ?_⟩
      rw [hname, ← hproblem]
      exact .misfit hes' hleast' hparse'

end Texts

/-- **The least key that does not fit is reported, and nothing else.** A
document is a configuration exactly if all its entries fit, and then it is
the one that says what they say. Otherwise the fault is that of the least
misfit. So the outcome is the same for all documents that have the same
entries, in whatever order and spelling. -/
theorem parse_reports_least_misfit {text : String} {es : Entries}
    (hes : Toml.parse? text.toList = some es) :
    ((∃ m, parse text = .ok m) ↔ ∀ e ∈ es, Fits e)
    ∧ (∀ m, parse text = .ok m ↔ Holds m es)
    ∧ (∀ error, parse text = .error error ↔
        ∃ e fault, LeastMisfit es e ∧ Offends e fault ∧ error = .misfit fault)
    ∧ (∀ v expected, Tells v expected (wrongType v expected))
    ∧ (∃! o, Outcome text o)
    ∧ ∀ text' es', Toml.parse? text'.toList = some es' → SameTable es es' →
        ∀ o, Outcome text o ↔ Outcome text' o := by
  refine ⟨?_, fun m => parse_eq_ok_iff hes, fun error => parse_error_iff hes, tells_wrongType,
    ?_, ?_⟩
  · rw [parse_of_table hes, ← decode_ok_iff]
    simp only [mapError_ok_iff]
  · cases hparse : parse text with
    | ok m => exact ⟨_, .model hparse, fun o ho => ho.unique hes (.model hparse)⟩
    | error error =>
        obtain ⟨e, fault, hleast, -, rfl⟩ := (parse_error_iff hes).mp hparse
        have houtcome : Outcome text (.error (e.1.name, fault.problem)) :=
          .misfit hes hleast hparse
        exact ⟨_, houtcome, fun o ho => ho.unique hes houtcome⟩
  · intro text' es' hes' hsame o
    obtain ⟨o₁, h, h'⟩ := exists_common_outcome hes hes' hsame
    constructor
    · intro ho
      exact ho.unique hes h ▸ h'
    · intro ho
      exact ho.unique hes' h' ▸ h

set_option maxRecDepth 20000 in
/-- Both entries are bad, and the one that is reported does not depend on
which comes first, nor on the quotes of the item that is a string. -/
theorem least_misfit_reported_in_either_order :
    ∃ es es', Toml.parse? "z=true\nargs=['a',true]".toList = some es
      ∧ Toml.parse? "args=[\"a\",true]\nz=true".toList = some es' ∧ SameTable es es'
      ∧ Outcome "z=true\nargs=['a',true]" (.error ("args", .wrongType "boolean `true`" .string))
      ∧ Outcome "args=[\"a\",true]\nz=true"
        (.error ("args", .wrongType "boolean `true`" .string)) := by
  have htext : "z=true\nargs=['a',true]".toList
      = ['z', '=', 't', 'r', 'u', 'e', '\n', 'a', 'r', 'g', 's', '=', '[', '\'', 'a', '\'', ',',
        't', 'r', 'u', 'e', ']'] := by decide
  have htext' : "args=[\"a\",true]\nz=true".toList
      = ['a', 'r', 'g', 's', '=', '[', '"', 'a', '"', ',', 't', 'r', 'u', 'e', ']', '\n', 'z',
        '=', 't', 'r', 'u', 'e'] := by decide
  obtain ⟨es, kz, ka, sz, sa, p, q, hes, rfl, hz, ha⟩ : ∃ es kz ka sz sa p q,
      Toml.parse? "z=true\nargs=['a',true]".toList = some es
      ∧ es = [(kz, ⟨sz, .boolean true⟩),
        (ka, ⟨sa, .array .listed [⟨p, .string "a"⟩, ⟨q, .boolean true⟩]⟩)]
      ∧ kz.name = "z" ∧ ka.name = "args" := by
    rw [htext]
    exact ⟨_, _, _, _, _, _, _, rfl, rfl, rfl, rfl⟩
  obtain ⟨es', kz', ka', sz', sa', p', q', hes', rfl, hz', ha'⟩ : ∃ es kz ka sz sa p q,
      Toml.parse? "args=[\"a\",true]\nz=true".toList = some es
      ∧ es = [(ka, ⟨sa, .array .listed [⟨p, .string "a"⟩, ⟨q, .boolean true⟩]⟩),
        (kz, ⟨sz, .boolean true⟩)]
      ∧ kz.name = "z" ∧ ka.name = "args" := by
    rw [htext']
    exact ⟨_, _, _, _, _, _, _, rfl, rfl, rfl, rfl⟩
  have hsame : SameTable
      [(kz, ⟨sz, .boolean true⟩),
        (ka, ⟨sa, .array .listed [⟨p, .string "a"⟩, ⟨q, .boolean true⟩]⟩)]
      [(ka', ⟨sa', .array .listed [⟨p', .string "a"⟩, ⟨q', .boolean true⟩]⟩),
        (kz', ⟨sz', .boolean true⟩)] :=
    .table (.swap ..) (.cons (ha.trans ha'.symm) (.cons (hz.trans hz'.symm) .nil))
      (.cons (.array (.cons (.string _) (.cons (.boolean _) .nil))) (.cons (.boolean _) .nil))
  have hoffends : Offends (ka, ⟨sa, .array .listed [⟨p, .string "a"⟩, ⟨q, .boolean true⟩]⟩)
      ⟨.wrongType "boolean `true`" .string, q⟩ :=
    .mistyped (f := .args) ha (@Mistyped.item _ _ [⟨p, .string "a"⟩] [] ⟨q, .boolean true⟩ rfl
      (by simp) (by simp))
  have hleast : LeastMisfit
      [(kz, ⟨sz, .boolean true⟩),
        (ka, ⟨sa, .array .listed [⟨p, .string "a"⟩, ⟨q, .boolean true⟩]⟩)]
      (ka, ⟨sa, .array .listed [⟨p, .string "a"⟩, ⟨q, .boolean true⟩]⟩) := by
    refine ⟨by simp, not_fits_iff.mpr ⟨_, hoffends⟩, ?_⟩
    rw [List.forall_mem_cons, List.forall_mem_singleton]
    refine ⟨fun _ => ?_, fun _ => Text.Precedes.irrefl _⟩
    rw [hz, ha, ← Text.order_isLE_iff]
    decide
  obtain ⟨-, -, hreports, -, -, houtcome⟩ := parse_reports_least_misfit hes
  have hbad := Outcome.misfit hes hleast ((hreports _).mpr ⟨_, _, hleast, hoffends, rfl⟩)
  rw [ha] at hbad
  exact ⟨_, _, hes, hes', hsame, hbad, (houtcome _ _ hes' hsame _).mp hbad⟩

end AdvisoryGate.Config
