import AdvisoryGate.Proofs.JsonMeaning
import AdvisoryGate.Proofs.SchemaFile

/-!
# What the check of the schema file accepts

The check reads the schema file, takes it as JSON and compares what it means
with what the schema means. So it accepts the texts that say the schema
(`SaysSchema`), by the grammar and not by the reader, and all others make it
fail. Spaces, spellings of strings and the order of members make no
difference (`check_accepts_what_says_the_schema`).

This is so as long as the last member with a name stays the last, and for
texts within the limits of the reader. Both show in members that others of
the same name replace (`replaced_members_decide`).
-/

namespace AdvisoryGate.Maintenance

open Json (Denotes Rearranged Same Tree Value Written)

/-- The content is a text that says the same as the schema. -/
def SaysSchema (content : ByteArray) : Prop :=
  ∃ text t v, String.fromUTF8? content = some text ∧ Denotes text.toList t
    ∧ t.value? Json.maxDepth = some v ∧ Same v Config.Schema.value

/-- The contents are texts of two trees of which one is the other rearranged.
The spaces and the spellings of strings need not agree. -/
def Rewritten (content content' : ByteArray) : Prop :=
  ∃ text text' t t', String.fromUTF8? content = some text
    ∧ String.fromUTF8? content' = some text' ∧ Denotes text.toList t ∧ Denotes text'.toList t'
    ∧ Rearranged t t'

/-! ## Contents -/

section Contents

variable {content content' : ByteArray}

theorem isSchema_iff {v : Value} : isSchema v = true ↔ Same v Config.Schema.value := by
  rw [isSchema, decide_eq_true_iff, Json.same_iff]

/-- What the check asks of a text. -/
theorem saysSchema_iff : SaysSchema content ↔ ∃ text v, String.fromUTF8? content = some text
    ∧ Json.parse? text.toList = some v ∧ isSchema v = true := by
  constructor
  · rintro ⟨text, t, v, htext, hdenotes, hvalue, hsame⟩
    exact ⟨text, v, htext, Json.parse?_eq_some_iff.mpr ⟨t, hdenotes, hvalue⟩,
      isSchema_iff.mpr hsame⟩
  · rintro ⟨text, v, htext, hparse, hsame⟩
    obtain ⟨t, hdenotes, hvalue⟩ := Json.parse?_eq_some_iff.mp hparse
    exact ⟨text, t, v, htext, hdenotes, hvalue, isSchema_iff.mp hsame⟩

/-- It is the tree of a text that decides. -/
theorem saysSchema_of_denotes {text : String} {t : Tree}
    (htext : String.fromUTF8? content = some text) (ht : Denotes text.toList t) :
    SaysSchema content ↔ (t.value? Json.maxDepth).map Value.canonical
      = some Config.Schema.value.canonical := by
  rw [saysSchema_iff, Option.map_eq_some_iff]
  constructor
  · rintro ⟨text', v, htext', hparse, hsame⟩
    obtain rfl := Option.some.inj (htext.symm.trans htext')
    rw [Json.parse?_of_denotes ht] at hparse
    exact ⟨v, hparse, decide_eq_true_iff.mp hsame⟩
  · rintro ⟨v, hvalue, hsame⟩
    exact ⟨text, v, htext, (Json.parse?_of_denotes ht).trans hvalue, decide_eq_true_iff.mpr hsame⟩

theorem Rewritten.saysSchema_iff (h : Rewritten content content') :
    SaysSchema content ↔ SaysSchema content' := by
  obtain ⟨text, text', t, t', htext, htext', ht, ht', hrearranged⟩ := h
  rw [saysSchema_of_denotes htext ht, saysSchema_of_denotes htext' ht',
    hrearranged.canonical_eq]

end Contents

/-! ## The check -/

section Check

variable {d : Disk} {directory : String} {content : ByteArray}

theorem checkSchemas_of_saysSchema (h : schemaContent? d directory = some content)
    (hschema : SaysSchema content) :
    checkSchemas d directory = success "Schema is up to date.\n" := by
  obtain ⟨text, v, htext, hparse, hsame⟩ := saysSchema_iff.mp hschema
  exact checkSchemas_of_text h htext hparse hsame

theorem checkSchemas_of_not_saysSchema
    (h : ∀ content, schemaContent? d directory = some content → ¬ SaysSchema content) :
    (checkSchemas d directory).exitCode = 1 := by
  unfold checkSchemas
  dsimp only
  split
  · rfl
  split
  · rfl
  rename_i text hread
  obtain ⟨content, hcontent, htext⟩ := readText_ok_iff.mp hread
  split
  · rfl
  rename_i v hparse
  split
  · rename_i hsame
    exact absurd (saysSchema_iff.mpr ⟨text, v, htext, hparse, hsame⟩) (h content hcontent)
  · rfl

theorem report_of_check {home : Option String} {args : List String}
    (h : args.head? = some "check-schemas" ∨ args.head? = some "validate-schemas") (d : Disk) :
    (call d home args).2 = checkSchemas d (home.getD ".") := by
  rw [call_of_check h]

/-- Whether the check passes is a matter of what the schema file holds. -/
theorem checkSchemas_cases (d : Disk) (directory : String) :
    (checkSchemas d directory = success "Schema is up to date.\n"
        ∧ ∃ content, schemaContent? d directory = some content ∧ SaysSchema content)
      ∨ ((checkSchemas d directory).exitCode = 1
        ∧ ¬ ∃ content, schemaContent? d directory = some content ∧ SaysSchema content) := by
  by_cases h : ∃ content, schemaContent? d directory = some content ∧ SaysSchema content
  · obtain ⟨content, hcontent, hschema⟩ := h
    exact .inl ⟨checkSchemas_of_saysSchema hcontent hschema, content, hcontent, hschema⟩
  · refine .inr ⟨?_, h⟩
    exact checkSchemas_of_not_saysSchema fun content hcontent hschema =>
      h ⟨content, hcontent, hschema⟩

theorem exitCode_checkSchemas_iff : (checkSchemas d directory).exitCode = 0 ↔
    ∃ content, schemaContent? d directory = some content ∧ SaysSchema content := by
  rcases checkSchemas_cases d directory with ⟨hreport, hcontent⟩ | ⟨hexit, hnone⟩
  · rw [hreport]
    exact iff_of_true rfl hcontent
  · rw [hexit]
    exact iff_of_false (by decide) hnone

theorem checkSchemas_of_passed (h : (checkSchemas d directory).exitCode = 0) :
    checkSchemas d directory = success "Schema is up to date.\n" := by
  obtain ⟨content, hcontent, hschema⟩ := exitCode_checkSchemas_iff.mp h
  exact checkSchemas_of_saysSchema hcontent hschema

theorem exitCode_of_failed (h : (checkSchemas d directory).exitCode ≠ 0) :
    (checkSchemas d directory).exitCode = 1 := by
  rcases checkSchemas_cases d directory with ⟨hreport, -⟩ | ⟨hexit, -⟩
  · rw [hreport] at h
    exact absurd rfl h
  · exact hexit

end Check

/-! ## A disk with a schema file -/

/-- A folder for the schema file, and nothing in it. -/
def folder : Disk where
  get? := fun p => if p = [] ∨ p = ["schemas"] then some .directory else none
  here := []

def holding (text : String) : Disk :=
  folder.put ["schemas", schemaFile] (.file text.toUTF8 false)

theorem schemaContent?_holding (text : String) :
    schemaContent? (holding text) "." = some text.toUTF8 := by
  have hplace : folder.placeOf (schemaPath ".") = .ok ["schemas", schemaFile] := by
    decide +kernel
  have hnone : folder.get? ["schemas", schemaFile] ≠ some .directory := by decide +kernel
  exact schemaContent?_put hplace hnone text.toUTF8 false

/-! ## Texts of the schema -/

/-- The members of the schema. -/
def keywords : List (String × Value) := Json.membersOf Config.Schema.value

theorem denotes_schemaText :
    Denotes Config.Schema.text.toList (.object (Json.memberTrees keywords)) := by
  rw [Config.Schema.text, String.toList_append]
  exact (Json.plain_schema 123).denotes_layout (by simp [Json.Spaces])

theorem saysSchema_text : SaysSchema Config.Schema.text.toUTF8 :=
  ⟨_, _, _, fromUTF8?_toUTF8 _, denotes_schemaText, (Json.plain_schema 123).value?_tree,
    Json.same_iff.mpr rfl⟩

theorem plain_keywords (depth : Nat) : ∀ m ∈ keywords, Json.Plain (depth + 3) m.2 :=
  Json.plain_object_iff.mp (Json.plain_schema depth)

/-- The members of the schema in reverse. -/
def reversed : String := (Value.object keywords.reverse).layout

theorem denotes_reversed :
    Denotes reversed.toList (.object (Json.memberTrees keywords).reverse) := by
  have hplain : Json.Plain 4 (.object keywords.reverse) :=
    .object fun m hm => plain_keywords 0 m (List.mem_reverse.mp hm)
  exact hplain.denotes

/-! ## What is accepted -/

/-- **The check accepts what says the schema.** It succeeds if the schema
file holds a text of JSON with the meaning of the schema, and then it says
so; on every other content, and if there is none, it fails. Nothing changes
with the spaces, the spellings of strings and the order of members, as long
as the last with some name stays the last. -/
theorem check_accepts_what_says_the_schema {home : Option String} {args : List String}
    (h : args.head? = some "check-schemas" ∨ args.head? = some "validate-schemas") (d : Disk) :
    ((call d home args).2.exitCode = 0 ↔
        ∃ content, schemaContent? d (home.getD ".") = some content ∧ SaysSchema content)
      ∧ ((call d home args).2.exitCode = 0 →
        (call d home args).2 = success "Schema is up to date.\n")
      ∧ ((call d home args).2.exitCode ≠ 0 → (call d home args).2.exitCode = 1)
      ∧ ∀ d' content content', schemaContent? d (home.getD ".") = some content →
        schemaContent? d' (home.getD ".") = some content' → Rewritten content content' →
          (call d' home args).2.exitCode = (call d home args).2.exitCode := by
  rw [report_of_check h]
  refine ⟨exitCode_checkSchemas_iff, checkSchemas_of_passed, exitCode_of_failed, ?_⟩
  intro d' content content' hcontent hcontent' hrewritten
  have hiff : (checkSchemas d' (home.getD ".")).exitCode = 0
      ↔ (checkSchemas d (home.getD ".")).exitCode = 0 := by
    rw [exitCode_checkSchemas_iff, exitCode_checkSchemas_iff, hcontent, hcontent']
    simp only [Option.some.injEq, exists_eq_left', hrewritten.saysSchema_iff]
  rw [report_of_check h]
  by_cases hexit : (checkSchemas d (home.getD ".")).exitCode = 0
  · rw [hexit, hiff.mpr hexit]
  · rw [exitCode_of_failed hexit, exitCode_of_failed fun h => hexit (hiff.mp h)]

/-- As it is written, and with its members in reverse. -/
theorem schema_accepted_in_reverse :
    (call (holding Config.Schema.text) none ["check-schemas"]).2.exitCode = 0
      ∧ (call (holding reversed) none ["check-schemas"]).2.exitCode = 0 := by
  obtain ⟨haccepted, -, -, hsame⟩ :=
    @check_accepts_what_says_the_schema none ["check-schemas"] (.inl rfl)
      (holding Config.Schema.text)
  have hwritten := haccepted.mpr ⟨_, schemaContent?_holding _, saysSchema_text⟩
  have hrewritten : Rewritten Config.Schema.text.toUTF8 reversed.toUTF8 :=
    ⟨_, _, _, _, fromUTF8?_toUTF8 _, fromUTF8?_toUTF8 _, denotes_schemaText, denotes_reversed,
      .of_perm (by decide) (List.reverse_perm _).symm⟩
  refine ⟨hwritten, ?_⟩
  rw [← hwritten]
  exact hsame _ _ _ (schemaContent?_holding _) (schemaContent?_holding _) hrewritten

/-! ## Members that are replaced -/

/-- The schema with a member in front, whose text is given and which a later
one of the same name replaces. -/
def headed (w : List Char) : String :=
  .ofList ('\x7b' :: (Json.writeString "type" ++ ':' :: w
    ++ ',' :: Json.writeInside (Json.writeMember 1) 0 keywords ++ ['\x7d']))

section Headed

variable {t : Tree} {w : List Char}

theorem denotes_headed (h : Written t w) :
    Denotes (headed w).toList (.object ((some "type", t) :: Json.memberTrees keywords)) := by
  let first : Json.Member := ⟨some "type", t, w, Json.writeString "type" ++ ':' :: w⟩
  have hfirst : Json.MemberText (some "type") w first.text :=
    ⟨_, [], [], Json.stringText_writeString "type", Json.spaces_nil, Json.spaces_nil, rfl⟩
  have hrow : Json.Row ((first :: keywords.map (Json.writtenMember 1)).map (·.text))
      (first.text ++ ',' :: Json.writeInside (Json.writeMember 1) 0 keywords) :=
    .more Json.spaces_nil Json.spaces_nil (Json.row_writeInside 0 _ _)
  have hwritten := Written.object
    (List.forall_mem_cons.mpr ⟨h, List.forall_mem_map.mpr fun m hm =>
      (plain_keywords 0 m hm).written 1⟩)
    (List.forall_mem_cons.mpr ⟨hfirst, List.forall_mem_map.mpr fun m _ =>
      Json.memberText_writeMember 1 m⟩) (.row hrow)
  rw [List.map_cons, ← Json.memberTrees_eq 1] at hwritten
  refine ⟨[], _, [], Json.spaces_nil, hwritten, Json.spaces_nil, ?_⟩
  rw [headed, String.toList_ofList]
  exact (List.append_nil _).symm

theorem value?_headed (depth : Nat) (t : Tree) :
    Tree.value? (depth + 4) (.object ((some "type", t) :: Json.memberTrees keywords))
      = (t.value? (depth + 3)).map fun v => .object (("type", v) :: keywords) := by
  have hmembers : Json.memberValues? (depth + 3) (Json.memberTrees keywords) = some keywords :=
    Json.memberValues?_memberTrees fun m hm => (plain_keywords depth m hm).value?_tree
  rw [Tree.value?, Json.memberValues?, hmembers]
  cases t.value? (depth + 3) <;> rfl

theorem same_headed (v : Value) :
    Same (.object (("type", v) :: keywords)) Config.Schema.value :=
  Json.same_of_replaced (by decide) v

/-- Although it is replaced, the member has to have a value. -/
theorem saysSchema_headed_iff (h : Written t w) :
    SaysSchema (headed w).toUTF8 ↔ (t.value? 126).isSome = true := by
  have hvalue := value?_headed 123 t
  rw [saysSchema_of_denotes (fromUTF8?_toUTF8 _) (denotes_headed h),
    show Json.maxDepth = 123 + 4 from rfl, hvalue, Option.map_map]
  cases t.value? (123 + 3) with
  | none => simp
  | some v =>
      simp only [Option.map_some, Option.isSome_some, iff_true]
      exact congrArg some (same_headed v).canonical_eq

end Headed

/-- Arrays inside each other. -/
def nest : Nat → Value
  | 0 => .array []
  | n + 1 => .array [nest n]

theorem plain_nest : ∀ n, Json.Plain (n + 1) (nest n)
  | 0 => .array (List.forall_mem_nil _)
  | n + 1 => .array (List.forall_mem_singleton.mpr (plain_nest n))

theorem value?_nest {depth n : Nat} (h : depth ≤ n) : (nest n).tree.value? depth = none := by
  induction n generalizing depth with
  | zero =>
      obtain rfl := Nat.le_zero.mp h
      rfl
  | succ n ih =>
      cases depth with
      | zero => rfl
      | succ depth =>
          show (Json.itemValues? depth [(nest n).tree]).map _ = none
          rw [Json.itemValues?, ih (Nat.le_of_succ_le_succ h)]
          rfl

/-- A number out of range. -/
def hugeText : List Char := ['1', 'e', '9', '9', '9']

def huge : Json.Numeral := ⟨false, ['1'], [], Json.digitsValue ['9', '9', '9']⟩

theorem written_huge : Written (.number huge) hugeText := by
  have hone : Json.Digits ['1'] := ⟨List.cons_ne_nil _ _, List.all_eq_true.mp rfl⟩
  have hnines : Json.Digits ['9', '9', '9'] := ⟨List.cons_ne_nil _ _, List.all_eq_true.mp rfl⟩
  exact .number ⟨hugeText, ⟨[], ['e', '9', '9', '9'], hone, nofun, .none,
    .bare (.inl rfl) hnines, rfl⟩, rfl⟩

theorem value?_huge : huge.value? = none := if_neg (by decide +kernel)

/-- The first half of a surrogate pair, and nothing behind it. -/
def halfText : List Char := ['"', '\\', 'u', 'd', '8', '0', '0', '"']

theorem written_half : Written (.string none) halfText := by
  have hdigits : List.Forall₂ Toml.IsHex ['d', '8', '0', '0'] [13, 8, 0, 0] :=
    .cons ⟨false, by decide⟩ (.cons ⟨false, by decide⟩ (.cons ⟨false, by decide⟩
      (.cons ⟨false, by decide⟩ .nil)))
  exact .string ⟨_, _, .cons (.unit rfl hdigits) .nil, rfl, rfl⟩

theorem exitCode_of_saysSchema {text : String} (h : SaysSchema text.toUTF8) :
    (call (holding text) none ["check-schemas"]).2.exitCode = 0 := by
  rw [report_of_check (.inl rfl), Option.getD_none]
  exact exitCode_checkSchemas_iff.mpr ⟨_, schemaContent?_holding text, h⟩

theorem exitCode_of_not_saysSchema {text : String} (h : ¬ SaysSchema text.toUTF8) :
    (call (holding text) none ["check-schemas"]).2.exitCode = 1 := by
  rw [report_of_check (.inl rfl), Option.getD_none]
  refine checkSchemas_of_not_saysSchema fun content hcontent => ?_
  obtain rfl := Option.some.inj ((schemaContent?_holding text).symm.trans hcontent)
  exact h

/-- The schema with another type behind it. -/
def overridden : String := (Value.object (keywords ++ [("type", .null)])).layout

theorem plain_overridden : Json.Plain Json.maxDepth (.object (keywords ++ [("type", .null)])) :=
  .object (List.forall_mem_append.mpr ⟨plain_keywords 123, List.forall_mem_singleton.mpr .null⟩)

theorem denotes_overridden : Denotes overridden.toList
    (.object (Json.memberTrees keywords ++ [(some "type", .null)])) := plain_overridden.denotes

theorem not_saysSchema_overridden : ¬ SaysSchema overridden.toUTF8 := by
  rw [saysSchema_of_denotes (fromUTF8?_toUTF8 _) denotes_overridden]
  intro h
  have hvalue := plain_overridden.value?_tree
  have hsame := (congrArg (Option.map Value.canonical) hvalue).symm.trans h
  have htype := Json.lastMember?_congr (Value.object.inj (Option.some.inj hsame)) "type"
  exact absurd htype (by decide +kernel)

/-- **Members that are replaced decide**: by standing behind those that were
to replace them, by being nested too deep, by a number out of range or by
half of a surrogate pair. -/
theorem replaced_members_decide :
    let code := fun text => (call (holding text) none ["check-schemas"]).2.exitCode
    (∃ ms ms', Denotes (headed ['n', 'u', 'l', 'l']).toList (.object ms)
        ∧ Denotes overridden.toList (.object ms') ∧ ms.Perm ms'
        ∧ code (headed ['n', 'u', 'l', 'l']) = 0 ∧ code overridden = 1)
      ∧ (∃ t v, Denotes (headed (Json.write 1 (nest 126))).toList t ∧ t.value? 128 = some v
        ∧ Same v Config.Schema.value ∧ code (headed (Json.write 1 (nest 126))) = 1)
      ∧ ∀ w ∈ [hugeText, halfText], ∃ t, Written t w
        ∧ Denotes (headed w).toList (.object ((some "type", t) :: Json.memberTrees keywords))
        ∧ code (headed w) = 1 := by
  intro code
  have hnest := (plain_nest 126).written 1
  have hrefused : ∀ {t w}, Written t w → t.value? 126 = none → code (headed w) = 1 := by
    intro t w hw ht
    refine exitCode_of_not_saysSchema fun hschema => ?_
    rw [saysSchema_headed_iff hw, ht] at hschema
    cases hschema
  refine ⟨⟨_, _, denotes_headed .null, denotes_overridden, ?_, ?_, ?_⟩, ?_, ?_⟩
  · exact (List.perm_append_singleton _ _).symm
  · exact exitCode_of_saysSchema ((saysSchema_headed_iff .null).mpr rfl)
  · exact exitCode_of_not_saysSchema not_saysSchema_overridden
  · refine ⟨_, _, denotes_headed hnest, ?_, same_headed (nest 126), hrefused hnest ?_⟩
    · rw [value?_headed 124, (plain_nest 126).value?_tree]
      rfl
    · exact value?_nest (Nat.le_refl 126)
  · intro w hw
    simp only [List.mem_cons, List.not_mem_nil, or_false] at hw
    rcases hw with rfl | rfl
    · exact ⟨_, written_huge, denotes_headed written_huge, hrefused written_huge value?_huge⟩
    · exact ⟨_, written_half, denotes_headed written_half, hrefused written_half rfl⟩

end AdvisoryGate.Maintenance
