import AdvisoryGate.Proofs.Fields
import AdvisoryGate.Proofs.Spelling
import AdvisoryGate.Proofs.TableContent

/-!
# Configurations as texts

The texts that state a configuration (`States`): each field that is written
has a line of its own, in any order, with any spelling of each character
and any layout around it. A field can be left out if it is in this
configuration as in one that says nothing.

`parse_of_states` reads every such text back as the configuration, whatever
the order, the spellings and the layout are. `exists_states` finds a text
for every configuration and every order of its fields.
-/

namespace AdvisoryGate.Config

open Toml (Spaces Quoted Listed LineEnd Lines Marked Readable Entries isBare isSpace)

/-! ## The grammar -/

/-- How the content of a field is written, and what follows it: a text as a
string in double quotes, a list as an array of these. -/
def Written : (shape : Shape) → shape.Content → List Char → List Char → Prop
  | .string, s, text, rest => Quoted s text rest
  | .sequence, l, text, rest => ∃ items, text = '[' :: items ∧ Listed l items rest

/-- What `m` says for a field, behind the name of the field and a sign. -/
def FieldText (m : Config) (f : Field) (w rest : List Char) : Prop :=
  ∃ c sp sp' text, m.get f = some c ∧ Spaces sp ∧ Spaces sp' ∧ Written f.shape c text rest
    ∧ w = f.name.toList ++ (sp ++ '=' :: (sp' ++ text))

/-- The fields, in some order, are those that have to be written for `m` and
perhaps others that `m` has. -/
structure Covers (m : Config) (fields : List Field) : Prop where
  once : fields.Nodup
  present : ∀ f ∈ fields, (m.get f).isSome
  rest : ∀ f ∉ fields, m.get f = ({} : Config).get f

/-- The text states `m`, with a line for each of the fields, in this order. -/
def States (m : Config) (fields : List Field) (text : String) : Prop :=
  ∃ body, Marked text.toList body ∧ Lines (FieldText m) fields body

/-! ## One line -/

section Line

variable {shape : Shape} {c : shape.Content} {text rest : List Char}

/-- What is written for a content is read as a value that stands for it. -/
theorem Written.value? (h : Written shape c text rest) (hrest : rest.head? ≠ some '"') :
    ∃ v, Toml.value? Toml.maxDepth text = some (v, rest) ∧ Denotes v.value shape c := by
  cases shape with
  | string => exact ⟨_, Toml.value?_of_quoted h hrest Toml.maxDepth, rfl⟩
  | sequence =>
      obtain ⟨items, rfl, hitems⟩ := h
      obtain ⟨vs, hread, hvs⟩ := Toml.value?_of_listed 79 hitems
      exact ⟨_, hread, .listed, vs, rfl, hvs⟩

theorem Written.cons (h : Written shape c text rest) :
    ∃ d r, text = d :: r ∧ isSpace d = false ∧ rest.length < r.length := by
  cases shape with
  | string =>
      obtain ⟨r, rfl, hlt⟩ := Quoted.cons h
      exact ⟨_, r, rfl, rfl, hlt⟩
  | sequence =>
      obtain ⟨items, rfl, hitems⟩ := h
      exact ⟨_, items, rfl, rfl, hitems.length⟩

theorem exists_written (shape : Shape) (c : shape.Content) (rest : List Char) :
    ∃ text, Written shape c text rest := by
  cases shape with
  | string => exact Toml.exists_quoted c rest
  | sequence =>
      obtain ⟨items, hitems⟩ := Toml.exists_listed rest c
      exact ⟨'[' :: items, items, rfl, hitems⟩

theorem name_isBare (f : Field) : ∀ c ∈ f.name.toList, isBare c = true := by
  cases f <;> exact List.all_eq_true.mp rfl

theorem exists_name_cons (f : Field) : ∃ c r, f.name.toList = c :: r := by
  cases f <;> exact ⟨_, _, rfl⟩

end Line

/-- What a line for a field is read as. -/
def Reads (m : Config) (f : Field) (x : Toml.Assignment) : Prop :=
  ∃ k : Toml.Key, x.path = [k] ∧ k.name = f.name
    ∧ ∃ c, m.get f = some c ∧ Denotes x.value.value f.shape c

/-- Nothing that can follow a value on its line is a quote. -/
theorem head_ne_quote {text rest : List Char} (h : LineEnd text rest) : text.head? ≠ some '"' := by
  intro hquote
  have hread := h.lineEnd?
  cases text with
  | nil => cases hquote
  | cons c text =>
      obtain rfl := Option.some.inj hquote
      cases hread

theorem readable_fieldText (m : Config) : Readable (FieldText m) (Reads m) where
  head := by
    rintro f w rest ⟨c, sp, sp', text, -, -, -, -, rfl⟩
    obtain ⟨d, r, hd⟩ := exists_name_cons f
    have hbare := name_isBare f d (by rw [hd]; exact List.mem_cons_self ..)
    refine ⟨d, _, by rw [hd, List.cons_append], ?_⟩
    rintro rfl
    exact absurd hbare (by decide)
  length := by
    rintro f w rest ⟨c, sp, sp', text, -, -, -, htext, rfl⟩
    obtain ⟨d, r, rfl, -, hlt⟩ := htext.cons
    simp only [List.length_append, List.length_cons]
    omega
  line := by
    rintro f sp₀ w rest rest' hsp₀ ⟨c, sp, sp', text, hc, hsp, hsp', htext, rfl⟩ hend
    obtain ⟨v, hvalue, hv⟩ := htext.value? (head_ne_quote hend)
    obtain ⟨d, r, rfl, hd, -⟩ := htext.cons
    obtain ⟨e, name, hname⟩ := exists_name_cons f
    have hbare := name_isBare f
    have hne : f.name.toList ≠ [] := by rw [hname]; exact List.cons_ne_nil e name
    obtain ⟨k, hk, hread⟩ := Toml.assignment?_of_bare hne hbare hsp hsp' hd hvalue
    have he : isBare e = true := hbare e (by rw [hname]; exact List.mem_cons_self ..)
    have hspace : isSpace e = false := by
      rw [Bool.eq_false_iff]
      intro hspace
      rcases Toml.isSpace_iff.mp hspace with rfl | rfl <;> cases he
    refine ⟨⟨[k], v⟩, ?_, k, rfl, ?_, c, hc, hv⟩
    · rw [hname, List.cons_append] at hread ⊢
      rw [Toml.line?, Toml.skipSpaces_cons hsp₀ hspace, Toml.lineContent?_of_bare he, hread]
      show (Toml.lineEnd? rest).bind _ = _
      rw [hend.lineEnd?]
      rfl
    · rw [hk, String.ofList_toList]

/-! ## The whole document -/

/-- Lines for distinct fields that the table does not have yet are entered
one by one, each as an entry that says what `m` says. -/
theorem assignAll?_of_reads {m : Config} {fields : List Field} {xs : List Toml.Assignment}
    (h : List.Forall₂ (Reads m) fields xs) : ∀ es : Entries, fields.Nodup →
      (∀ f ∈ fields, ∀ e ∈ es, e.1.name ≠ f.name) → (∀ e ∈ es, Agrees m e) →
        ∃ es', Entries.assignAll? es xs = some es' ∧ (∀ e ∈ es', Agrees m e)
          ∧ (∀ f ∈ fields, ∃ e ∈ es', e.1.name = f.name) ∧ ∀ e ∈ es, e ∈ es' := by
  induction h with
  | nil =>
      intro es _ _ hagree
      exact ⟨es, rfl, hagree, fun f hf => absurd hf List.not_mem_nil, fun e he => he⟩
  | @cons f x fields xs hx _ ih =>
      intro es honce hnew hagree
      obtain ⟨hf, honce⟩ := List.nodup_cons.mp honce
      obtain ⟨k, hpath, hk, c, hc, hv⟩ := hx
      have hassign : es.assign? x = some (es ++ [(k, x.value)]) := by
        have hnone : es.find? k.name = none := by
          rw [hk]
          exact Toml.find?_eq_none_iff.mpr (hnew f (List.mem_cons_self ..))
        rw [Entries.assign?, hpath]
        show es.insertNew? k x.value = _
        rw [Entries.insertNew?, hnone]
        rfl
      have hagree' : ∀ e ∈ es ++ [(k, x.value)], Agrees m e := by
        intro e he
        rcases List.mem_append.mp he with he | he
        · exact hagree e he
        · obtain rfl := List.mem_singleton.mp he
          exact ⟨f, hk, c, hv, hc⟩
      have hnew' : ∀ g ∈ fields, ∀ e ∈ es ++ [(k, x.value)], e.1.name ≠ g.name := by
        intro g hg e he
        rcases List.mem_append.mp he with he | he
        · exact hnew g (List.mem_cons_of_mem _ hg) e he
        · obtain rfl := List.mem_singleton.mp he
          intro hname
          obtain rfl := Field.name_injective (hk.symm.trans hname)
          exact hf hg
      -- The induction is on the lines; what a line has entered stays up to the end.
      obtain ⟨es', hes', hall, hcome, hkeep⟩ := ih _ honce hnew' hagree'
      refine ⟨es', ?_, hall, ?_, fun e he => hkeep e (List.mem_append_left _ he)⟩
      · rw [Entries.assignAll?, List.foldlM_cons, hassign]
        exact hes'
      · intro g hg
        rcases List.mem_cons.mp hg with rfl | hg
        · exact ⟨_, hkeep _ (List.mem_append_right _ (List.mem_singleton_self _)), hk⟩
        · exact hcome g hg

/-- There is a text for every configuration and every order of its fields. -/
theorem exists_states {m : Config} {fields : List Field} (h : Covers m fields) :
    ∃ text, States m fields text := by
  have hwrite : ∀ f ∈ fields, ∀ rest, ∃ w, FieldText m f w rest := by
    intro f hf rest
    obtain ⟨c, hc⟩ := Option.isSome_iff_exists.mp (h.present f hf)
    obtain ⟨text, htext⟩ := exists_written f.shape c rest
    exact ⟨_, c, [], [], text, hc, Toml.spaces_nil, Toml.spaces_nil, htext, rfl⟩
  obtain ⟨body, hbody⟩ := Toml.exists_lines hwrite
  refine ⟨String.ofList body, body, ?_, hbody⟩
  rw [String.toList_ofList]
  exact .bare body

/-- **Configurations survive being written.** Each can be stated with its
fields in any order, and all the texts that do so are read as it. -/
theorem parse_undoes_writing (m : Config) (fields : List Field) (hcovers : Covers m fields) :
    (∃ text, States m fields text) ∧ ∀ text, States m fields text → parse text = .ok m := by
  refine ⟨exists_states hcovers, ?_⟩
  rintro text ⟨body, hmarked, hlines⟩
  obtain ⟨xs, hparse, hxs⟩ := Toml.parse?_of_lines (readable_fieldText m) hmarked hlines
  obtain ⟨es, hes, hagree, hcome, -⟩ := assignAll?_of_reads hxs [] hcovers.once
    (fun _ _ e he => absurd he List.not_mem_nil) (fun e he => absurd he List.not_mem_nil)
  have hdecode : decode es = .ok m := by
    refine decode_of_agrees hagree fun f hf => hcovers.rest f fun hmem => ?_
    exact hf (hcome f hmem)
  rw [parse, hparse, hes]
  show (decode es).mapError _ = _
  rw [hdecode]
  rfl

/-- An empty list of arguments is stated, an empty ignore list is not, and
one character is written in three ways. -/
theorem parse_undoes_writing_of_escapes :
    let m : Config := { command := some "eee\"\u00e9", args := some [] }
    let text := "args = [ ] #0\r\n\ncommand=\"e\\x65\\u0065\\\"\u00e9\""
    Covers m [.args, .command] ∧ States m [.args, .command] text ∧ parse text = .ok m
      ∧ m ≠ { command := some "eee\"\u00e9" } := by
  intro m text
  have hcovers : Covers m [.args, .command] := by
    refine ⟨by decide, by decide, ?_⟩
    rintro (_ | _ | _ | _ | _) hf <;> first | rfl | exact absurd (by decide) hf
  have hplain : Toml.Spelled 'e' ['e'] := .plain (.inr (.inl (by decide))) (by decide) (by decide)
  have hshort : Toml.Spelled '"' ['\\', '"'] := .short (by decide)
  have haccent : Toml.Spelled '\u00e9' ['\u00e9'] := .plain (.inr (.inr (by decide))) (by decide)
    (by decide)
  have hbyte : Toml.Spelled 'e' ['\\', 'x', '6', '5'] :=
    @Toml.Spelled.code _ _ _ [6, 5] (by decide) (.cons ⟨true, rfl⟩ (.cons ⟨true, rfl⟩ .nil)) rfl
  have hunit : Toml.Spelled 'e' ['\\', 'u', '0', '0', '6', '5'] :=
    @Toml.Spelled.code _ _ _ [0, 0, 6, 5] (by decide) (.cons ⟨true, rfl⟩ (.cons ⟨true, rfl⟩
      (.cons ⟨true, rfl⟩ (.cons ⟨true, rfl⟩ .nil)))) rfl
  have hspace : Spaces [' '] := Toml.spaces_nil.cons (.inl rfl)
  let last : List Char := ['"', 'e', '\\', 'x', '6', '5', '\\', 'u', '0', '0', '6', '5', '\\', '"',
    '\u00e9', '"']
  let behind : List Char :=
    [' ', '#', '0', '\r', '\n', '\n', 'c', 'o', 'm', 'm', 'a', 'n', 'd', '='] ++ last
  have hcommand : Quoted "eee\"\u00e9" last [] :=
    ⟨_, .cons hplain (.cons hbyte (.cons hunit (.cons hshort (.cons haccent .nil)))), rfl⟩
  have hargs : Listed [] (' ' :: ']' :: behind) behind := .close (.space (.inl rfl) (.nil _))
  have hlast : Lines (FieldText m) [.command]
      (['c', 'o', 'm', 'm', 'a', 'n', 'd', '='] ++ last) :=
    @Lines.item _ _ _ _ [] _ _ _ Toml.spaces_nil
      ⟨_, [], [], last, rfl, Toml.spaces_nil, Toml.spaces_nil, hcommand, by decide⟩
      (@LineEnd.intro [] [] _ _ Toml.spaces_nil .none .done) .nil
  have hends : LineEnd behind ('\n' :: (['c', 'o', 'm', 'm', 'a', 'n', 'd', '='] ++ last)) :=
    @LineEnd.intro [' '] ['#', '0'] _ _ hspace
      (.comment (List.forall_mem_singleton.mpr (.inr (.inl (by decide))))) (.crlf _)
  have hlines : Lines (FieldText m) [.args, .command]
      (['a', 'r', 'g', 's', ' ', '=', ' ', '[', ' ', ']'] ++ behind) :=
    @Lines.item _ _ _ _ [] _ _ _ Toml.spaces_nil
      ⟨[], [' '], [' '], _, rfl, hspace, hspace, ⟨_, rfl, hargs⟩, by decide⟩ hends
      (.empty (@LineEnd.intro [] [] _ _ Toml.spaces_nil .none (.lf _)) hlast)
  have htext : text.toList = ['a', 'r', 'g', 's', ' ', '=', ' ', '[', ' ', ']'] ++ behind := by
    decide
  have hstates : States m [.args, .command] text := by
    refine ⟨_, ?_, hlines⟩
    rw [htext]
    exact .bare _
  exact ⟨hcovers, hstates, (parse_undoes_writing m _ hcovers).2 text hstates, by decide⟩

end AdvisoryGate.Config
