import AdvisoryGate.Maintenance
import AdvisoryGate.Proofs.Fields
import AdvisoryGate.Proofs.JsonSchema

/-!
# The schema and the decoder agree

The format of configurations is described twice: by the decoder, which
takes a table or refuses it, and by the schema, for tools that know
nothing of the decoder. `decodes_iff_valid` says that they take the same
tables, whatever stands in these and however deep, and it says so of every
schema file that the maintenance check accepts.

A TOML value is read as an instance in the obvious way (`asInstance`).
Nothing in it is null, so that the schema's leave to write null for what is
left out is one that no table can take.
-/

namespace AdvisoryGate.Toml

/-! ## TOML values as instances -/

/-- The number has no fraction. Of a number beyond the range of doubles
this is not known. -/
def Real.isWhole : Real → Bool
  | .finite _ x => x.mantissa % Double.power 2 (-x.exponent) = 0
  | _ => false

mutual

def Value.asInstance : Value → Json.Instance
  | .string text => .string text
  | .integer _ => .number true
  | .real x => .number x.isWhole
  | .boolean b => .boolean b
  | .moment => .moment
  | .array _ items => .array (itemInstances items)
  | .table _ entries => .object (memberInstances entries)

def itemInstances : List (Located Value) → List Json.Instance
  | [] => []
  | ⟨_, v⟩ :: vs => v.asInstance :: itemInstances vs

def memberInstances : List (Key × Located Value) → List (String × Json.Instance)
  | [] => []
  | (k, ⟨_, v⟩) :: es => (k.name, v.asInstance) :: memberInstances es

end

/-- A document as an instance. -/
def Entries.asInstance (es : Entries) : Json.Instance := .object (memberInstances es)

theorem itemInstances_eq_map : ∀ vs : List (Located Value),
    itemInstances vs = vs.map fun v => v.value.asInstance
  | [] => rfl
  | ⟨_, v⟩ :: vs => by rw [itemInstances, itemInstances_eq_map vs, List.map_cons]

theorem memberInstances_eq_map : ∀ es : List (Key × Located Value),
    memberInstances es = es.map fun e => (e.1.name, e.2.value.asInstance)
  | [] => rfl
  | (k, ⟨_, v⟩) :: es => by rw [memberInstances, memberInstances_eq_map es, List.map_cons]

theorem isString_iff {v : Value} : "string" ∈ v.asInstance.typeNames ↔ ∃ s, v = .string s := by
  constructor
  · intro h
    cases v with
    | string s => exact ⟨s, rfl⟩
    | _ => simp [Value.asInstance, Json.Instance.typeNames] at h
  · rintro ⟨s, rfl⟩
    exact List.mem_singleton_self _

theorem isArray_iff {v : Value} :
    "array" ∈ v.asInstance.typeNames ↔ ∃ kind items, v = .array kind items := by
  constructor
  · intro h
    cases v with
    | array kind items => exact ⟨kind, items, rfl⟩
    | _ => simp [Value.asInstance, Json.Instance.typeNames] at h
  · rintro ⟨kind, items, rfl⟩
    exact List.mem_singleton_self _

theorem not_isNull {v : Value} : "null" ∉ v.asInstance.typeNames := by
  intro h
  cases v <;> simp [Value.asInstance, Json.Instance.typeNames] at h

end AdvisoryGate.Toml

namespace AdvisoryGate.Config

open Json (Valid valid_object_iff lastMember? memberSchema?)

/-! ## The schemas of fields -/

/-- For TOML, leave to write null is no leave at all. -/
theorem ofType_optionalType_iff {name : String} {v : Toml.Value} :
    v.asInstance.OfType (Schema.optionalType name) ↔ name ∈ v.asInstance.typeNames := by
  constructor
  · rintro ⟨n, htype, hname⟩
    simp only [List.mem_cons, List.not_mem_nil, or_false, Json.Value.string.injEq] at hname
    rcases hname with rfl | rfl
    · exact htype
    · exact absurd htype Toml.not_isNull
  · intro h
    exact ⟨name, h, List.mem_cons_self ..⟩

section Keywords

variable {keywords : List (String × Json.Value)} {t : Json.Value} {v : Toml.Value}

/-- A schema that asks for a text. -/
theorem valid_text_iff (htype : lastMember? "type" keywords = some t)
    (ht : v.asInstance.OfType t ↔ "string" ∈ v.asInstance.typeNames) :
    Valid (.object keywords) v.asInstance ↔ ∃ s, Denotes v .string s := by
  rw [valid_object_iff]
  constructor
  · rintro ⟨h, -, -⟩
    exact Toml.isString_iff.mp (ht.mp (h t htype))
  · rintro ⟨s, rfl⟩
    refine ⟨?_, fun _ _ x hx => absurd hx List.not_mem_nil,
      fun m hm => absurd hm List.not_mem_nil⟩
    intro t' ht'
    rw [htype] at ht'
    obtain rfl := Option.some.inj ht'
    exact ht.mpr (Toml.isString_iff.mpr ⟨s, rfl⟩)

theorem valid_textItems_iff :
    Valid Schema.textItems v.asInstance ↔ ∃ s, v = .string s :=
  valid_text_iff rfl Iff.rfl

theorem exists_texts_iff : ∀ {items : List (Toml.Located Toml.Value)},
    (∃ l : List String, items.map (·.value) = l.map .string)
      ↔ ∀ x ∈ items, ∃ s, x.value = .string s
  | [] => ⟨fun _ x hx => absurd hx List.not_mem_nil, fun _ => ⟨[], rfl⟩⟩
  | x :: items => by
      rw [List.forall_mem_cons, ← exists_texts_iff]
      constructor
      · rintro ⟨l, hl⟩
        cases l with
        | nil => cases hl
        | cons s l =>
            rw [List.map_cons, List.map_cons, List.cons.injEq] at hl
            exact ⟨⟨s, hl.1⟩, l, hl.2⟩
      · rintro ⟨⟨s, hs⟩, l, hl⟩
        exact ⟨s :: l, by rw [List.map_cons, List.map_cons, hs, hl]⟩

/-- A schema that asks for a list of texts. -/
theorem valid_texts_iff (htype : lastMember? "type" keywords = some t)
    (ht : v.asInstance.OfType t ↔ "array" ∈ v.asInstance.typeNames)
    (hitems : lastMember? "items" keywords = some Schema.textItems) :
    Valid (.object keywords) v.asInstance ↔ ∃ l, Denotes v .sequence l := by
  rw [valid_object_iff]
  constructor
  · rintro ⟨h, hvalid, -⟩
    obtain ⟨kind, items, rfl⟩ := Toml.isArray_iff.mp (ht.mp (h t htype))
    have htexts : ∀ x ∈ items, ∃ s, x.value = .string s := by
      intro x hx
      refine valid_textItems_iff.mp (hvalid _ hitems _ ?_)
      show _ ∈ Toml.itemInstances items
      rw [Toml.itemInstances_eq_map]
      exact List.mem_map_of_mem hx
    obtain ⟨l, hl⟩ := exists_texts_iff.mpr htexts
    exact ⟨l, kind, items, rfl, hl⟩
  · rintro ⟨l, kind, items, rfl, hl⟩
    refine ⟨?_, ?_, fun m hm => absurd hm List.not_mem_nil⟩
    · intro t' ht'
      rw [htype] at ht'
      obtain rfl := Option.some.inj ht'
      exact ht.mpr (Toml.isArray_iff.mpr ⟨kind, items, rfl⟩)
    · intro s hs i hi
      rw [hitems] at hs
      obtain rfl := Option.some.inj hs
      replace hi : i ∈ Toml.itemInstances items := hi
      rw [Toml.itemInstances_eq_map] at hi
      obtain ⟨x, hx, rfl⟩ := List.mem_map.mp hi
      exact valid_textItems_iff.mpr (exists_texts_iff.mp ⟨l, hl⟩ x hx)

end Keywords

/-- What the schema asks of a field, the decoder asks of it. -/
theorem exists_fieldSchema (f : Field) : ∃ s, lastMember? f.name Schema.properties = some s
    ∧ ∀ v : Toml.Value, Valid s v.asInstance ↔ ∃ c : f.Content, Denotes v f.shape c := by
  cases f with
  | schema | profile | command =>
      exact ⟨_, rfl, fun v => valid_text_iff rfl ofType_optionalType_iff⟩
  | args => exact ⟨_, rfl, fun v => valid_texts_iff rfl ofType_optionalType_iff rfl⟩
  | ignore => exact ⟨_, rfl, fun v => valid_texts_iff rfl Iff.rfl rfl⟩

/-- The members of the schema itself. -/
def Schema.keywords : List (String × Json.Value) := Json.membersOf Schema.value

theorem lastMember?_of_ne {name : String} (hname : ∀ f : Field, name ≠ f.name) :
    lastMember? name Schema.properties = none := by
  have hargs := (hname .args).symm
  have hcommand := (hname .command).symm
  have hignore := (hname .ignore).symm
  have hprofile := (hname .profile).symm
  have hschema := (hname .schema).symm
  simp only [Field.name] at hargs hcommand hignore hprofile hschema
  simp [Schema.properties, lastMember?, hargs, hcommand, hignore, hprofile, hschema]

/-- What the schema asks of a member, the decoder asks of an entry: there is
a field of the name, and the value stands for some content of it. -/
theorem valid_member_iff {k : Toml.Key} {v : Toml.Located Toml.Value} :
    (∀ s, memberSchema? Schema.keywords k.name = some s → Valid s v.value.asInstance)
      ↔ Fits (k, v) := by
  have hown {s : Json.Value} (hs : lastMember? k.name Schema.properties = some s) :
      memberSchema? Schema.keywords k.name = some s := by
    show (lastMember? k.name Schema.properties).or _ = some s
    rw [hs, Option.some_or]
  constructor
  · intro h
    by_cases hfield : ∃ f : Field, k.name = f.name
    · obtain ⟨f, hf⟩ := hfield
      obtain ⟨s, hs, hiff⟩ := exists_fieldSchema f
      rw [← hf] at hs
      exact ⟨f, hf, (hiff v.value).mp (h s (hown hs))⟩
    · have hnone := lastMember?_of_ne fun f hf => hfield ⟨f, hf⟩
      have hfalse : memberSchema? Schema.keywords k.name = some (.boolean false) := by
        show (lastMember? k.name Schema.properties).or _ = _
        rw [hnone]
        rfl
      exact absurd (h _ hfalse) (Json.not_valid_false _)
  · rintro ⟨f, hf, hcontent⟩ s hs
    obtain ⟨s', hs', hiff⟩ := exists_fieldSchema f
    rw [← hf] at hs'
    obtain rfl := Option.some.inj ((hown hs').symm.trans hs)
    exact (hiff v.value).mpr hcontent

/-- The schema as it is written by the maintenance command. -/
theorem valid_value_iff {es : Toml.Entries} :
    Valid Schema.value es.asInstance ↔ ∀ e ∈ es, Fits e := by
  have hmembers : es.asInstance.members = es.map fun e => (e.1.name, e.2.value.asInstance) :=
    Toml.memberInstances_eq_map es
  show Valid (.object Schema.keywords) es.asInstance ↔ _
  rw [valid_object_iff, hmembers]
  constructor
  · rintro ⟨-, -, h⟩ e he
    exact valid_member_iff.mp (h _ (List.mem_map_of_mem he))
  · intro h
    refine ⟨?_, ?_, ?_⟩
    · intro t ht
      obtain rfl := Option.some.inj ht
      exact List.mem_singleton_self "object"
    · intro s hs
      cases hs
    · intro m hm
      obtain ⟨e, he, rfl⟩ := List.mem_map.mp hm
      exact valid_member_iff.mpr (h e he)

/-- **Schema and decoder accept the same configurations.** A table is
decoded exactly if it is valid under the schema, in whatever form a schema
file has it. -/
theorem decodes_iff_valid {schema : Json.Value} (h : Maintenance.isSchema schema = true)
    (es : Toml.Entries) : (∃ cfg, decode es = .ok cfg) ↔ Valid schema es.asInstance := by
  have hcanonical : schema.canonical = Schema.value.canonical := of_decide_eq_true h
  rw [decode_ok_iff, ← valid_value_iff]
  constructor
  · intro hvalid
    exact hvalid.congr hcanonical.symm
  · intro hvalid
    exact hvalid.congr hcanonical

/-- The schema file as it lies in the project, with its properties in another
order than the command writes them, and a table that has them all. -/
theorem decodes_iff_valid_under_kept_schema :
    let lines := [
      "\x7b", "  \"$schema\": \"https://json-schema.org/draft/2020-12/schema\",",
      "  \"title\": \"AuditGateConfigV1\",",
      "  \"description\": \"`audit-gate.toml` schema v1.\\n\\nEvery field "
        ++ "is optional. An empty file behaves like no file at all.\",",
      "  \"type\": \"object\",", "  \"properties\": \x7b", "    \"schema\": \x7b",
      "      \"description\": \"Optional schema string for tooling (`audit-gate.config.v1`).\",",
      "      \"type\": [", "        \"string\",", "        \"null\"", "      ]", "    \x7d,",
      "    \"profile\": \x7b",
      "      \"description\": \"Named ignore-list preset: `default` or `none`.\",",
      "      \"type\": [", "        \"string\",", "        \"null\"", "      ]", "    \x7d,",
      "    \"command\": \x7b", "      \"description\": \"Program to run instead of `cargo`.\",",
      "      \"type\": [", "        \"string\",", "        \"null\"", "      ]", "    \x7d,",
      "    \"args\": \x7b",
      "      \"description\": \"Leading arguments for `command` (default `[\\\"audit\\\"]`).\",",
      "      \"type\": [", "        \"array\",", "        \"null\"", "      ],",
      "      \"items\": \x7b", "        \"type\": \"string\"", "      \x7d", "    \x7d,",
      "    \"ignore\": \x7b",
      "      \"description\": \"Extra advisory ids, appended after the preset in order.\",",
      "      \"type\": \"array\",", "      \"items\": \x7b", "        \"type\": \"string\"",
      "      \x7d,", "      \"default\": []", "    \x7d", "  \x7d,",
      "  \"additionalProperties\": false", "\x7d"]
    let text := lines.flatMap fun line => line.toList ++ ['\n']
    let entry (name : String) (v : Toml.Value) : Toml.Key × Toml.Located Toml.Value :=
      (⟨name, [], []⟩, ⟨⟨[], []⟩, v⟩)
    let strings : Toml.Value := .array .listed [⟨⟨[], []⟩, .string "--json"⟩]
    let es : Toml.Entries :=
      [entry "schema" (.string "audit-gate.config.v1"), entry "profile" (.string "none"),
       entry "command" (.string "cargo"), entry "args" strings, entry "ignore" strings]
    ∃ schema, Json.parse? text = some schema ∧ Maintenance.isSchema schema = true
      ∧ Valid schema es.asInstance := by
  intro lines text entry strings es
  have hread : (Json.parse? text).map Maintenance.isSchema = some true := by
    decide +kernel
  obtain ⟨schema, hschema, h⟩ := Option.map_eq_some_iff.mp hread
  have hstrings : Denotes strings .sequence ["--json"] := ⟨.listed, _, rfl, rfl⟩
  have hfits : ∀ e ∈ es, Fits e := by
    simp only [es, List.forall_mem_cons]
    exact ⟨⟨.schema, rfl, _, rfl⟩, ⟨.profile, rfl, _, rfl⟩, ⟨.command, rfl, _, rfl⟩,
      ⟨.args, rfl, _, hstrings⟩, ⟨.ignore, rfl, _, hstrings⟩,
      fun _ he => absurd he List.not_mem_nil⟩
  exact ⟨schema, hschema, h, (decodes_iff_valid h es).mp (decode_ok_iff.mpr hfits)⟩

end AdvisoryGate.Config
