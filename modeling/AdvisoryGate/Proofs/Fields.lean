import AdvisoryGate.Config
import AdvisoryGate.Proofs.Lemmas

/-!
# The fields of a configuration

Decoding enters the values of a table one after the other. Here the five
fields are data: a `Field` has a name and a shape, its content is a text or
a list of texts (`Field.Content`), and `Denotes` says which TOML values
stand for which content. `enter_ok_iff` is all that a single step does.

Two facts about whole tables follow. `decode_ok_iff` says which tables are
decoded at all, and `decode_of_agrees` what they are decoded to: in neither
the order of the entries plays a part, although decoding sorts them first.
-/

namespace AdvisoryGate.Config

/-! ## Fields and what is written for them -/

/-- A key that a configuration can have. -/
inductive Field
  | schema
  | profile
  | command
  | args
  | ignore
  deriving DecidableEq, Repr

def Field.name : Field → String
  | .schema => "schema"
  | .profile => "profile"
  | .command => "command"
  | .args => "args"
  | .ignore => "ignore"

/-- What a field holds. -/
def Field.shape : Field → Shape
  | .schema | .profile | .command => .string
  | .args | .ignore => .sequence

theorem Field.name_injective {f g : Field} (h : f.name = g.name) : f = g := by
  cases f <;> cases g <;> first | rfl | exact absurd h (by decide)

/-- What can be written for a field of some shape. -/
def Shape.Content : Shape → Type
  | .string => String
  | .sequence => List String

abbrev Field.Content (f : Field) : Type := f.shape.Content

/-- What a configuration says for a field; an ignore list always says
something. -/
def get (m : Config) : (f : Field) → Option f.Content
  | .schema => m.schema
  | .profile => m.profile
  | .command => m.command
  | .args => m.args
  | .ignore => some m.ignore

/-- The configuration with something else for one field. -/
def set (m : Config) : (f : Field) → f.Content → Config
  | .schema, s => { m with schema := some s }
  | .profile, s => { m with profile := some s }
  | .command, s => { m with command := some s }
  | .args, l => { m with args := some l }
  | .ignore, l => { m with ignore := l }

theorem ext_get {m m' : Config} (h : ∀ f, m.get f = m'.get f) : m = m' := by
  obtain ⟨schema, profile, command, args, ignore⟩ := m
  obtain rfl := h .schema
  obtain rfl := h .profile
  obtain rfl := h .command
  obtain rfl := h .args
  obtain rfl := Option.some.inj (h .ignore)
  rfl

theorem get_set (m : Config) (f : Field) (c : f.Content) : (m.set f c).get f = some c := by
  cases f <;> rfl

theorem get_set_ne (m : Config) {f g : Field} (c : f.Content) (h : g ≠ f) :
    (m.set f c).get g = m.get g := by
  cases f <;> cases g <;> first | rfl | exact absurd rfl h

/-- The value stands for the content: a string for a text, an array of
strings for a list. -/
def Denotes (v : Toml.Value) : (shape : Shape) → shape.Content → Prop
  | .string, s => v = .string s
  | .sequence, l => ∃ kind items, v = .array kind items ∧ items.map (·.value) = l.map .string

/-! ## One entry -/

theorem stringOf_ok_iff {v : Toml.Located Toml.Value} {s : String} :
    stringOf v = .ok s ↔ v.value = .string s := by
  rw [stringOf]
  split
  · rename_i t ht
    rw [ht, Except.ok.injEq, Toml.Value.string.injEq]
  · rename_i hnot
    constructor
    · intro h
      cases h
    · intro h
      exact absurd h (hnot s)

theorem mapM_stringOf_ok_iff : ∀ {items : List (Toml.Located Toml.Value)} {l : List String},
    items.mapM stringOf = .ok l ↔ items.map (·.value) = l.map .string
  | [], l => by
      rw [List.mapM_nil, List.map_nil, eq_comm (a := []), List.map_eq_nil_iff]
      exact ⟨fun h => (Except.ok.inj h).symm, fun h => h ▸ rfl⟩
  | v :: items, l => by
      simp only [List.mapM_cons, bind_ok_iff, stringOf_ok_iff, mapM_stringOf_ok_iff]
      constructor
      · rintro ⟨s, hs, l', hl', h⟩
        obtain rfl := Except.ok.inj h
        rw [List.map_cons, List.map_cons, hs, hl']
      · intro h
        cases l with
        | nil => cases h
        | cons s l =>
            rw [List.map_cons, List.map_cons, List.cons.injEq] at h
            exact ⟨s, h.1, l, h.2, rfl⟩

theorem stringsOf_ok_iff {v : Toml.Located Toml.Value} {l : List String} :
    stringsOf v = .ok l ↔
      ∃ kind items, v.value = .array kind items ∧ items.map (·.value) = l.map .string := by
  rw [stringsOf]
  split
  · rename_i kind items hv
    rw [mapM_stringOf_ok_iff, hv]
    constructor
    · intro h
      exact ⟨kind, items, rfl, h⟩
    · rintro ⟨kind', items', heq, h⟩
      cases heq
      exact h
  · rename_i hnot
    constructor
    · intro h
      cases h
    · rintro ⟨kind, items, heq, -⟩
      exact absurd heq (hnot kind items)

/-- What the entry of a known key does. -/
theorem enter_field_ok_iff {cfg cfg' : Config} {k : Toml.Key} {v : Toml.Located Toml.Value}
    {f : Field} (hk : k.name = f.name) :
    cfg.enter k v = .ok cfg' ↔ ∃ c : f.Content, Denotes v.value f.shape c ∧ cfg' = cfg.set f c := by
  cases f <;>
    simp only [enter, hk, Field.name, map_ok_iff, stringOf_ok_iff, stringsOf_ok_iff,
      eq_comm (b := cfg')] <;>
    rfl

/-- An entry is taken exactly if its key is a field and its value stands
for some content of the field, which it then is. -/
theorem enter_ok_iff {cfg cfg' : Config} {k : Toml.Key} {v : Toml.Located Toml.Value} :
    cfg.enter k v = .ok cfg' ↔ ∃ f : Field, k.name = f.name
      ∧ ∃ c : f.Content, Denotes v.value f.shape c ∧ cfg' = cfg.set f c := by
  constructor
  · intro h
    have hfield : ∃ f : Field, k.name = f.name := by
      rw [enter] at h
      split at h
      · exact ⟨.schema, ‹_›⟩
      · exact ⟨.profile, ‹_›⟩
      · exact ⟨.command, ‹_›⟩
      · exact ⟨.args, ‹_›⟩
      · exact ⟨.ignore, ‹_›⟩
      · cases h
    obtain ⟨f, hf⟩ := hfield
    exact ⟨f, hf, (enter_field_ok_iff hf).mp h⟩
  · rintro ⟨f, hf, hc⟩
    exact (enter_field_ok_iff hf).mpr hc

/-! ## Whole tables -/

/-- An entry that a configuration can have. -/
def Fits (e : Toml.Key × Toml.Located Toml.Value) : Prop :=
  ∃ f : Field, e.1.name = f.name ∧ ∃ c : f.Content, Denotes e.2.value f.shape c

/-- The entry says what the configuration says. -/
def Agrees (m : Config) (e : Toml.Key × Toml.Located Toml.Value) : Prop :=
  ∃ f : Field, e.1.name = f.name ∧ ∃ c : f.Content, Denotes e.2.value f.shape c ∧ m.get f = some c

theorem mem_inKeyOrder {es : Toml.Entries} {e : Toml.Key × Toml.Located Toml.Value} :
    e ∈ inKeyOrder es ↔ e ∈ es := List.mem_mergeSort

theorem foldlM_enter_ok_iff : ∀ {es : Toml.Entries} {cfg : Config},
    (∃ cfg', es.foldlM (fun cfg e => cfg.enter e.1 e.2) cfg = .ok cfg') ↔ ∀ e ∈ es, Fits e
  | [], cfg => ⟨fun _ _ he => absurd he List.not_mem_nil, fun _ => ⟨cfg, rfl⟩⟩
  | e :: es, cfg => by
      simp only [List.foldlM_cons, bind_ok_iff, List.forall_mem_cons]
      constructor
      · rintro ⟨cfg', cfg₁, he, hes⟩
        obtain ⟨f, hf, c, hc, -⟩ := enter_ok_iff.mp he
        exact ⟨⟨f, hf, c, hc⟩, foldlM_enter_ok_iff.mp ⟨cfg', hes⟩⟩
      · rintro ⟨⟨f, hf, c, hc⟩, hes⟩
        obtain ⟨cfg', hcfg'⟩ := (@foldlM_enter_ok_iff es (cfg.set f c)).mpr hes
        exact ⟨cfg', cfg.set f c, enter_ok_iff.mpr ⟨f, hf, c, hc, rfl⟩, hcfg'⟩

/-- A table is decoded exactly if each of its entries is one that a
configuration can have. -/
theorem decode_ok_iff {es : Toml.Entries} : (∃ cfg, decode es = .ok cfg) ↔ ∀ e ∈ es, Fits e := by
  rw [decode, foldlM_enter_ok_iff]
  simp only [mem_inKeyOrder]

/-- The invariant of decoding a table whose entries say what `m` says: the
fields that have come are as in `m`, the others as they were. -/
theorem foldlM_enter_of_agrees {m : Config} : ∀ {es : Toml.Entries} {cfg : Config},
    (∀ e ∈ es, Agrees m e) →
      ∃ cfg', es.foldlM (fun cfg e => cfg.enter e.1 e.2) cfg = .ok cfg'
        ∧ ∀ f : Field, ((∃ e ∈ es, e.1.name = f.name) → cfg'.get f = m.get f)
          ∧ ((¬ ∃ e ∈ es, e.1.name = f.name) → cfg'.get f = cfg.get f)
  | [], cfg, _ =>
      ⟨cfg, rfl, fun _ => ⟨fun ⟨_, he, _⟩ => absurd he List.not_mem_nil, fun _ => rfl⟩⟩
  | e :: es, cfg, h => by
      obtain ⟨f, hf, c, hc, hm⟩ := h e (List.mem_cons_self ..)
      obtain ⟨cfg', hcfg', hget⟩ := @foldlM_enter_of_agrees m es (cfg.set f c)
        fun e' he' => h e' (List.mem_cons_of_mem _ he')
      refine ⟨cfg', ?_, fun g => ⟨?_, ?_⟩⟩
      · rw [List.foldlM_cons, bind_ok_iff]
        exact ⟨_, enter_ok_iff.mpr ⟨f, hf, c, hc, rfl⟩, hcfg'⟩
      · rintro ⟨e', he', hname⟩
        -- A key that comes again is entered again, with the same content.
        by_cases hlater : ∃ e' ∈ es, e'.1.name = g.name
        · exact (hget g).1 hlater
        · rcases List.mem_cons.mp he' with rfl | he'
          · obtain rfl := Field.name_injective (hf.symm.trans hname)
            rw [(hget f).2 hlater, get_set, hm]
          · exact absurd ⟨e', he', hname⟩ hlater
      · intro hnever
        have hne : g ≠ f := by
          rintro rfl
          exact hnever ⟨e, List.mem_cons_self .., hf⟩
        have hlater : ¬ ∃ e' ∈ es, e'.1.name = g.name := fun ⟨e', he', hname⟩ =>
          hnever ⟨e', List.mem_cons_of_mem _ he', hname⟩
        rw [(hget g).2 hlater, get_set_ne _ _ hne]

/-- A table that says what `m` says, and leaves out only what `m` has like
any configuration, is decoded to `m`. -/
theorem decode_of_agrees {m : Config} {es : Toml.Entries} (hagree : ∀ e ∈ es, Agrees m e)
    (hrest : ∀ f : Field, (¬ ∃ e ∈ es, e.1.name = f.name) → m.get f = ({} : Config).get f) :
    decode es = .ok m := by
  obtain ⟨cfg, hcfg, hget⟩ := @foldlM_enter_of_agrees m (inKeyOrder es) {}
    fun e he => hagree e (mem_inKeyOrder.mp he)
  simp only [mem_inKeyOrder] at hget
  have heq : cfg = m := by
    refine ext_get fun f => ?_
    by_cases hcomes : ∃ e ∈ es, e.1.name = f.name
    · exact (hget f).1 hcomes
    · rw [(hget f).2 hcomes, hrest f hcomes]
  rw [decode, hcfg, heq]

/-! ## Tables in order -/

/-- What a document is decoded to whose keys stand in ascending order. The
sorting is left out, so that this can be computed in a proof. -/
def ascending? (text : String) : Option (Except Fault Config) :=
  (Toml.parse? text.toList).bind fun es =>
    if es.Pairwise fun a b => (Text.order a.1.name b.1.name).isLE = true then
      some (es.foldlM (fun cfg e => enter cfg e.1 e.2) {})
    else none

theorem parse_of_ascending? {text : String} {r : Except Fault Config}
    (h : ascending? text = some r) : parse text = r.mapError .misfit := by
  obtain ⟨es, hes, hr⟩ := Option.bind_eq_some_iff.mp h
  split at hr
  · rename_i hsorted
    have horder : inKeyOrder es = es := List.mergeSort_of_pairwise hsorted
    rw [parse, hes, ← Option.some.inj hr]
    simp only [decode, horder]
  · cases hr

end AdvisoryGate.Config
