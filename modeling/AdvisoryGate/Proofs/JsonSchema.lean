import AdvisoryGate.Json.Value
import AdvisoryGate.Proofs.TextOrder

/-!
# Validity under a JSON schema

What a JSON schema asks of an instance, in the sense of draft 2020-12, as
far as the keywords `type`, `items`, `properties` and `additionalProperties`
go. Every keyword is about instances of one type and lets all others pass.
Keywords that only describe play no part.

A schema is itself a JSON value, and it is the value that counts, not how
it is written: `Valid.congr` carries validity over to every schema with the
same canonical form. So nothing has to be said about the order in which a
schema file has its members.
-/

namespace AdvisoryGate.Json

/-! ## Instances -/

/-- What a schema is applied to. Of a number only its types are kept. A
moment is what JSON does not have: a date or a time that is no text. -/
inductive Instance
  | null
  | boolean (b : Bool)
  | number (whole : Bool)
  | string (text : String)
  | moment
  | array (items : List Instance)
  | object (members : List (String × Instance))

namespace Instance

def items : Instance → List Instance
  | .array items => items
  | _ => []

def members : Instance → List (String × Instance)
  | .object members => members
  | _ => []

/-- The names of the types of an instance. A moment has none. -/
def typeNames : Instance → List String
  | .null => ["null"]
  | .boolean _ => ["boolean"]
  | .number whole => "number" :: if whole then ["integer"] else []
  | .string _ => ["string"]
  | .moment => []
  | .array _ => ["array"]
  | .object _ => ["object"]

/-- The instance has the type that is asked for, or one of several. -/
def OfType (i : Instance) : Value → Prop
  | .string name => name ∈ i.typeNames
  | .array names => ∃ name ∈ i.typeNames, .string name ∈ names
  | _ => False

end Instance

/-! ## Schemas -/

/-- The value of a member: of repeated ones the last counts. -/
def lastMember? (name : String) : List (String × Value) → Option Value
  | [] => none
  | (n, v) :: ms => (lastMember? name ms).or (if n = name then some v else none)

/-- The members of a value, if it is an object. -/
def membersOf : Value → List (String × Value)
  | .object members => members
  | _ => []

/-- The schemas that a schema has for members with names of their own. -/
def properties (keywords : List (String × Value)) : List (String × Value) :=
  (lastMember? "properties" keywords).elim [] membersOf

/-- The schema for the members of some name: the one among the properties,
or else the one for additional members. -/
def memberSchema? (keywords : List (String × Value)) (name : String) : Option Value :=
  (lastMember? name (properties keywords)).or (lastMember? "additionalProperties" keywords)

/-- The instance is as the schema asks. -/
inductive Valid : Value → Instance → Prop
  | anything (i : Instance) : Valid (.boolean true) i
  | keywords {keywords : List (String × Value)} {i : Instance} :
      (∀ t, lastMember? "type" keywords = some t → i.OfType t) →
      (∀ s, lastMember? "items" keywords = some s → ∀ x ∈ i.items, Valid s x) →
      (∀ m ∈ i.members, ∀ s, memberSchema? keywords m.1 = some s → Valid s m.2) →
        Valid (.object keywords) i

theorem valid_object_iff {keywords : List (String × Value)} {i : Instance} :
    Valid (.object keywords) i ↔
      (∀ t, lastMember? "type" keywords = some t → i.OfType t)
      ∧ (∀ s, lastMember? "items" keywords = some s → ∀ x ∈ i.items, Valid s x)
      ∧ ∀ m ∈ i.members, ∀ s, memberSchema? keywords m.1 = some s → Valid s m.2 := by
  constructor
  · rintro (_ | ⟨htype, hitems, hmembers⟩)
    exact ⟨htype, hitems, hmembers⟩
  · rintro ⟨htype, hitems, hmembers⟩
    exact .keywords htype hitems hmembers

theorem not_valid_false (i : Instance) : ¬ Valid (.boolean false) i := by
  intro h
  cases h

/-! ## Meaning -/

theorem canonicalItems_eq_map : ∀ vs : List Value,
    Value.canonicalItems vs = vs.map Value.canonical
  | [] => rfl
  | v :: vs => by rw [Value.canonicalItems, canonicalItems_eq_map vs, List.map_cons]

theorem lookup_cons_eq (n m : String) (v : Value) (ms : List (String × Value)) :
    ((m, v) :: ms).lookup n = if n = m then some v else ms.lookup n := by
  by_cases hn : n = m
  · rw [if_pos hn, hn, List.lookup_cons_self]
  · rw [if_neg hn, List.lookup_cons, beq_false_of_ne hn]

theorem lookup_insertMember (name : String) (v : Value) (n : String) :
    ∀ ms : List (String × Value),
      (Value.insertMember name v ms).lookup n = if n = name then some v else ms.lookup n
  | [] => lookup_cons_eq n name v []
  | (m, w) :: ms => by
      rw [Value.insertMember]
      split
      · rw [lookup_cons_eq]
      · rename_i horder
        obtain rfl := Text.order_eq_iff.mp horder
        rw [lookup_cons_eq, lookup_cons_eq]
        split <;> rfl
      · rename_i horder
        rw [lookup_cons_eq, lookup_cons_eq, lookup_insertMember name v n ms]
        by_cases hm : n = m
        · have hn : n ≠ name := by
            rintro rfl
            rw [Text.order_eq_iff.mpr hm] at horder
            cases horder
          rw [if_pos hm, if_neg hn, if_pos hm]
        · rw [if_neg hm, if_neg hm]

/-- The canonical form has the members that count. -/
theorem lookup_canonicalMembers (n : String) (ms done : List (String × Value)) :
    (Value.canonicalMembers done ms).lookup n
      = ((lastMember? n ms).map Value.canonical).or (done.lookup n) := by
  induction ms generalizing done with
  | nil => rw [Value.canonicalMembers, lastMember?, Option.map_none, Option.none_or]
  | cons m ms ih =>
      obtain ⟨name, v⟩ := m
      rw [Value.canonicalMembers, ih, lookup_insertMember, lastMember?]
      cases lastMember? n ms with
      | some w => rfl
      | none =>
          by_cases hn : n = name
          · simp [hn]
          · simp [hn, Ne.symm hn]

theorem membersOf_congr {v v' : Value} (h : v.canonical = v'.canonical) :
    Value.canonicalMembers [] (membersOf v) = Value.canonicalMembers [] (membersOf v') := by
  cases v with
  | object ms =>
      cases v' with
      | object ms' => exact Value.object.inj h
      | _ => cases h
  | _ =>
      cases v' with
      | object ms' => cases h
      | _ => rfl

section Congruence

variable {ks ks' : List (String × Value)}
  (h : Value.canonicalMembers [] ks = Value.canonicalMembers [] ks')

include h

/-- Objects that mean the same have members that mean the same. -/
theorem lastMember?_congr (n : String) :
    (lastMember? n ks).map Value.canonical = (lastMember? n ks').map Value.canonical := by
  have hlookup := congrArg (List.lookup n) h
  simpa only [lookup_canonicalMembers, List.lookup_nil, Option.or_none] using hlookup

theorem properties_congr :
    Value.canonicalMembers [] (properties ks) = Value.canonicalMembers [] (properties ks') := by
  have hproperties := lastMember?_congr h "properties"
  rw [properties, properties]
  cases hp : lastMember? "properties" ks with
  | none =>
      rw [hp, Option.map_none, eq_comm, Option.map_eq_none_iff] at hproperties
      rw [hproperties]
  | some p =>
      rw [hp, Option.map_some, eq_comm] at hproperties
      obtain ⟨p', hp', hcanonical⟩ := Option.map_eq_some_iff.mp hproperties
      rw [hp']
      exact (membersOf_congr hcanonical).symm

theorem memberSchema?_congr (n : String) :
    (memberSchema? ks n).map Value.canonical = (memberSchema? ks' n).map Value.canonical := by
  rw [memberSchema?, memberSchema?, Option.map_or, Option.map_or,
    lastMember?_congr (properties_congr h), lastMember?_congr h]

end Congruence

theorem exists_of_map_canonical {o o' : Option Value} {v' : Value}
    (h : o.map Value.canonical = o'.map Value.canonical) (hv : o' = some v') :
    ∃ v, o = some v ∧ v.canonical = v'.canonical := by
  rw [hv] at h
  exact Option.map_eq_some_iff.mp h

theorem Instance.OfType.congr {i : Instance} {t t' : Value} (h : i.OfType t)
    (heq : t.canonical = t'.canonical) : i.OfType t' := by
  cases t with
  | string name =>
      cases t' <;> cases heq
      exact h
  | array names =>
      cases t' with
      | array names' =>
          obtain ⟨name, htype, hname⟩ := h
          rw [Value.canonical, Value.canonical, Value.array.injEq, canonicalItems_eq_map,
            canonicalItems_eq_map] at heq
          have hmem : Value.string name ∈ names'.map Value.canonical := by
            rw [← heq]
            exact List.mem_map_of_mem hname
          obtain ⟨v, hv, hcanonical⟩ := List.mem_map.mp hmem
          cases v <;> cases hcanonical
          exact ⟨name, htype, hv⟩
      | _ => cases heq
  | _ => exact absurd h id

/-- **Validity is a matter of what a schema means**, not of how it is
written. -/
theorem Valid.congr {s : Value} {i : Instance} (h : Valid s i) : ∀ {s' : Value},
    s.canonical = s'.canonical → Valid s' i := by
  induction h with
  | anything i =>
      intro s' heq
      cases s' <;> cases heq
      exact .anything i
  | keywords htype hitems hmembers ihitems ihmembers =>
      intro s' heq
      cases s' with
      | object ks' =>
          rw [Value.canonical, Value.canonical, Value.object.injEq] at heq
          refine .keywords ?_ ?_ ?_
          · intro t' ht'
            obtain ⟨t, ht, hcanonical⟩ := exists_of_map_canonical (lastMember?_congr heq _) ht'
            exact Instance.OfType.congr (htype t ht) hcanonical
          · intro s' hs' x hx
            obtain ⟨s, hs, hcanonical⟩ := exists_of_map_canonical (lastMember?_congr heq _) hs'
            exact ihitems s hs x hx hcanonical
          · intro m hm s' hs'
            obtain ⟨s, hs, hcanonical⟩ :=
              exists_of_map_canonical (memberSchema?_congr heq m.1) hs'
            exact ihmembers m hm s hs hcanonical
      | _ => cases heq

end AdvisoryGate.Json
