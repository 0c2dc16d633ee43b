import AdvisoryGate.Toml.Document
import Mathlib.Data.List.Forall2
import Mathlib.Data.List.Nodup

/-!
# What a document's table holds

Two facts about tables that are read from a text. Each key stands in the
table once (`parse?_keysOnce`), whatever keys, dotted keys and headers the
document is made of: nothing is ever added to a table but under a key that
it does not have. And what a value denotes does not depend on where it
stands in the text, on how it came about, or on the order in which a table
was given its keys: `Alike` is the equality that is left.
-/

namespace AdvisoryGate.Toml

/-! ## Keys -/

/-- The names of the keys of a table. -/
def Entries.names (es : Entries) : List String := es.map (·.1.name)

/-- No key is given twice. -/
def Entries.KeysOnce (es : Entries) : Prop := es.names.Nodup

section Keys

variable {es es' : Entries} {k : Key} {v : Located Value}

theorem keysOnce_nil : Entries.KeysOnce [] := List.nodup_nil

theorem find?_eq_none_iff {name : String} :
    es.find? name = none ↔ ∀ e ∈ es, e.1.name ≠ name := by
  rw [Entries.find?, Option.map_eq_none_iff, List.find?_eq_none]
  simp only [decide_eq_true_eq]

theorem names_replace (name : String) : (es.replace name v).names = es.names := by
  rw [Entries.replace, Entries.names, Entries.names, List.map_map]
  refine List.map_congr_left fun e _ => ?_
  show (if e.1.name = name then (e.1, v) else e).1.name = e.1.name
  split <;> rfl

theorem Entries.KeysOnce.replace (h : es.KeysOnce) (name : String) :
    (es.replace name v).KeysOnce := by
  rw [KeysOnce, names_replace]
  exact h

theorem Entries.KeysOnce.add (h : es.KeysOnce) (hk : ∀ e ∈ es, e.1.name ≠ k.name) :
    Entries.KeysOnce (es ++ [(k, v)]) := by
  rw [KeysOnce, names, List.map_append, List.map_singleton]
  refine List.Nodup.append h (List.nodup_singleton _) ?_
  rintro name hname hname'
  obtain ⟨e, he, rfl⟩ := List.mem_map.mp hname
  exact hk e he (List.mem_singleton.mp hname')

/-- A table keeps its keys apart under a change. -/
def KeepsKeys (change : Entries → Option Entries) : Prop :=
  ∀ es es', change es = some es' → es.KeysOnce → es'.KeysOnce

theorem KeepsKeys.foldlM {α : Type} {step : Entries → α → Option Entries}
    (hstep : ∀ a, KeepsKeys (step · a)) : ∀ as : List α, KeepsKeys (as.foldlM step)
  | [], es, es', h, hes => by
      obtain rfl := Option.some.inj h
      exact hes
  | a :: as, es, es', h, hes => by
      obtain ⟨es₁, ha, has⟩ := Option.bind_eq_some_iff.mp h
      exact foldlM hstep as es₁ es' has (hstep a es es₁ ha hes)

theorem keepsKeys_insertNew? (k : Key) (v : Located Value) : KeepsKeys (·.insertNew? k v) := by
  intro es es' h hes
  dsimp only [Entries.insertNew?] at h
  split at h
  · cases h
  · rename_i hnew
    obtain rfl := Option.some.inj h
    refine hes.add (find?_eq_none_iff.mp ?_)
    simpa using hnew

/-- What a path leads to may change in any way: all that the table itself
sees of it is one new key, or another value for one that it has. -/
theorem keepsKeys_at? {make kind : TableKind} {change : TableKind → Entries → Option Entries}
    {path : List Key} (hchange : ∀ kind, KeepsKeys (change kind)) :
    KeepsKeys (Entries.at? make change path kind) := by
  intro es es' h hes
  cases path with
  | nil => exact hchange kind es es' h hes
  | cons k path =>
      rw [Entries.at?] at h
      split at h
      · rename_i hnew
        obtain ⟨sub, -, h⟩ := Option.bind_eq_some_iff.mp h
        obtain rfl := Option.some.inj h
        exact hes.add (find?_eq_none_iff.mp hnew)
      · split at h
        · cases h
        · obtain ⟨sub, -, h⟩ := Option.bind_eq_some_iff.mp h
          obtain rfl := Option.some.inj h
          exact hes.replace _
      · split at h
        · obtain ⟨sub, -, h⟩ := Option.bind_eq_some_iff.mp h
          obtain rfl := Option.some.inj h
          exact hes.replace _
        · cases h
      · cases h

theorem keepsKeys_assign? (a : Assignment) : KeepsKeys (·.assign? a) := by
  intro es es' h
  dsimp only [Entries.assign?] at h
  split at h
  · cases h
  · exact keepsKeys_insertNew? _ _ es es' h
  · refine keepsKeys_at? (fun kind sub sub' hsub => ?_) es es' h
    split at hsub
    · exact keepsKeys_insertNew? _ _ sub sub' hsub
    · cases hsub

theorem keepsKeys_open? (s : Section) (k : Key) : KeepsKeys (s.open? k) := by
  intro es es' h hes
  rw [Section.open?] at h
  split at h
  · rename_i hnew
    obtain ⟨sub, -, h⟩ := Option.bind_eq_some_iff.mp h
    obtain rfl := Option.some.inj h
    exact hes.add (find?_eq_none_iff.mp hnew)
  · obtain ⟨sub, -, h⟩ := Option.bind_eq_some_iff.mp h
    obtain rfl := Option.some.inj h
    -- A table that was only implied moves to the end of its table.
    refine Entries.KeysOnce.add (List.Nodup.sublist (List.filter_sublist.map _) hes) ?_
    intro e he
    exact of_decide_eq_true (List.mem_filter.mp he).2
  · cases h

theorem keepsKeys_append? (s : Section) (k : Key) : KeepsKeys (s.append? k) := by
  intro es es' h hes
  rw [Section.append?] at h
  obtain ⟨body, -, h⟩ := Option.bind_eq_some_iff.mp h
  split at h
  · rename_i hnew
    obtain rfl := Option.some.inj h
    exact hes.add (find?_eq_none_iff.mp hnew)
  · obtain rfl := Option.some.inj h
    exact hes.replace _
  · cases h

theorem keepsKeys_extend? (s : Section) : KeepsKeys (·.extend? s) := by
  intro es es' h
  dsimp only [Entries.extend?] at h
  split at h
  · cases h
  · refine keepsKeys_at? (fun kind sub sub' hsub => ?_) es es' h
    split at hsub
    · exact keepsKeys_append? s _ sub sub' hsub
    · exact keepsKeys_open? s _ sub sub' hsub

end Keys

/-- No table that is read from a text has a key twice. -/
theorem parse?_keysOnce {text : List Char} {es : Entries} (h : parse? text = some es) :
    es.KeysOnce := by
  obtain ⟨lines, -, h⟩ := Option.bind_eq_some_iff.mp h
  obtain ⟨es₁, hbody, hrest⟩ := Option.bind_eq_some_iff.mp h
  have honce : es₁.KeysOnce := KeepsKeys.foldlM keepsKeys_assign? _ [] es₁ hbody keysOnce_nil
  exact KeepsKeys.foldlM keepsKeys_extend? _ es₁ es hrest honce

theorem Entries.KeysOnce.eq_of_mem {es : Entries} (h : es.KeysOnce) {e e' : Key × Located Value}
    (he : e ∈ es) (he' : e' ∈ es) (hname : e.1.name = e'.1.name) : e = e' :=
  List.inj_on_of_nodup_map h he he' hname

/-! ## Values -/

/-- The values are one and the same value of TOML. -/
inductive Alike : Value → Value → Prop
  | string (s : String) : Alike (.string s) (.string s)
  | integer (n : Option Int) : Alike (.integer n) (.integer n)
  | real (x : Real) : Alike (.real x) (.real x)
  | boolean (b : Bool) : Alike (.boolean b) (.boolean b)
  | moment : Alike .moment .moment
  | array {kind kind' : ArrayKind} {items items' : List (Located Value)} :
      List.Forall₂ (fun x x' => Alike x.value x'.value) items items' →
        Alike (.array kind items) (.array kind' items')
  | table {kind kind' : TableKind} {es es₁ es' : Entries} : es.Perm es₁ →
      List.Forall₂ (fun e e' => e.1.name = e'.1.name) es₁ es' →
      List.Forall₂ (fun e e' => Alike e.2.value e'.2.value) es₁ es' →
        Alike (.table kind es) (.table kind' es')

theorem Alike.string_iff {v v' : Value} (h : Alike v v') {s : String} :
    v' = .string s ↔ v = .string s := by
  cases h <;> simp

/-- The tables have the same keys with the same values. -/
def SameTable (es es' : Entries) : Prop := Alike (.table .headed es) (.table .headed es')

section Forall₂

variable {α β : Type} {R : α → β → Prop}

theorem exists_of_mem_left {l : List α} {l' : List β} (h : List.Forall₂ R l l') :
    ∀ a ∈ l, ∃ b ∈ l', R a b := by
  induction h with
  | nil => exact List.forall_mem_nil _
  | cons hab _ ih =>
      rw [List.forall_mem_cons]
      refine ⟨⟨_, List.mem_cons_self .., hab⟩, fun a ha => ?_⟩
      obtain ⟨b, hb, h⟩ := ih a ha
      exact ⟨b, List.mem_cons_of_mem _ hb, h⟩

theorem exists_of_mem_right {l : List α} {l' : List β} (h : List.Forall₂ R l l') :
    ∀ b ∈ l', ∃ a ∈ l, R a b := exists_of_mem_left (List.Forall₂.flip h)

theorem exists_append_of_forall₂ {x : α} {after : List α} : ∀ {before : List α} {l' : List β},
    List.Forall₂ R (before ++ x :: after) l' → ∃ before' x' after',
      l' = before' ++ x' :: after' ∧ List.Forall₂ R before before' ∧ R x x'
  | [], _, .cons hx _ => ⟨[], _, _, rfl, .nil, hx⟩
  | _ :: _, _, .cons ha h => by
      obtain ⟨before', x', after', rfl, hbefore, hx⟩ := exists_append_of_forall₂ h
      exact ⟨_ :: before', x', after', rfl, .cons ha hbefore, hx⟩

end Forall₂

/-- Whatever one of the tables has, the other has too. -/
theorem SameTable.entries {es es' : Entries} (h : SameTable es es') :
    (∀ e ∈ es, ∃ e' ∈ es', e.1.name = e'.1.name ∧ Alike e.2.value e'.2.value)
    ∧ ∀ e' ∈ es', ∃ e ∈ es, e.1.name = e'.1.name ∧ Alike e.2.value e'.2.value := by
  cases h with
  | table hperm hnames hvalues =>
      have hentries := List.Forall₂.mp (fun _ _ hname hvalue => And.intro hname hvalue)
        hnames hvalues
      constructor
      · intro e he
        exact exists_of_mem_left hentries e (hperm.mem_iff.mp he)
      · intro e' he'
        obtain ⟨e, he, h⟩ := exists_of_mem_right hentries e' he'
        exact ⟨e, hperm.mem_iff.mpr he, h⟩

end AdvisoryGate.Toml
