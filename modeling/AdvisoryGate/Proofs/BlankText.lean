import AdvisoryGate.Proofs.Fields
import AdvisoryGate.Proofs.Layout
import AdvisoryGate.Proofs.Resolution
import Mathlib.Data.List.TakeDrop

/-!
# Blank texts

A blank text is taken for an empty configuration without being read as a
document (`Plan.configOf`). That is a shortcut as long as its blanks are
spaces, tabs and line breaks, since a document of these is empty as well.
But more characters are blank than may stand in a document: a blank text
with one of the others is `Stray`, and no document (`parse?_of_stray`).

`shortcut_agrees_unless_stray` says where the shortcut shows: at the stray
texts, and nowhere else.
-/

namespace AdvisoryGate

/-! ## Blank documents -/

namespace Toml

/-- All characters are blank. -/
def Blank (cs : List Char) : Prop := ∀ c ∈ cs, Text.isBlankChar c = true

theorem Blank.of_gap {text rest : List Char} (h : Blank text) (hgap : Gap text rest) :
    Blank rest := fun c hc => h c (hgap.isSuffix.subset hc)

/-- No blank begins a key, a comment, a header or a document with a mark. -/
theorem ne_of_blank {c : Char} (hc : Text.isBlankChar c = true) :
    isBare c = false ∧ c ≠ '"' ∧ c ≠ '\'' ∧ c ≠ '#' ∧ c ≠ '[' ∧ c ≠ '\ufeff' := by
  have hall : Text.blanks.Forall fun c => isBare c = false ∧ c ≠ '"' ∧ c ≠ '\'' ∧ c ≠ '#'
      ∧ c ≠ '[' ∧ c ≠ '\ufeff' := by decide
  exact List.forall_iff_forall_mem.mp hall c (List.contains_iff_mem.mp hc)

theorem key?_of_blank {c : Char} (hc : Text.isBlankChar c = true) (r : List Char) :
    key? (c :: r) = none := by
  obtain ⟨hbare, hquote, happostrophe, -⟩ := ne_of_blank hc
  have hspan : (c :: r).span isBare = ([], c :: r) := by
    rw [List.span_eq_takeWhile_dropWhile, List.takeWhile_cons, List.dropWhile_cons, hbare]
    rfl
  have hstring : lineString? (c :: r) = none := by
    rw [lineString?]
    · rintro _ ⟨⟩
      exact hquote rfl
    · rintro _ ⟨⟩
      exact happostrophe rfl
  rw [key?, hspan]
  simp [hstring]

/-- A blank that neither separates words nor breaks the line has no place
in a line. -/
theorem lineContent?_of_blank {c : Char} (hc : Text.isBlankChar c = true) (hlf : c ≠ '\n')
    (hcr : c ≠ '\r') (r : List Char) : lineContent? (c :: r) = none := by
  obtain ⟨-, -, -, hhash, hbracket, -⟩ := ne_of_blank hc
  have hpath : path? maxDepth (c :: r) = none := by
    rw [maxDepth, path?, key?_of_blank hc]
    rfl
  have hassignment : assignment? (some ∘ skipSpaces) (value? maxDepth) (c :: r) = none := by
    rw [assignment?, hpath]
    rfl
  rw [lineContent?, hassignment]
  · rfl
  · exact fun h => nomatch h
  all_goals
    intro _ h
    obtain rfl := List.head_eq_of_cons_eq h
    contradiction

/-- What is left of a line of blanks behind its spaces is the end of the
line, or the line is not read. -/
theorem cut_of_line? {cs r : List Char} {line : Line} (h : Blank (skipSpaces cs))
    (hline : line? cs = some (line, r)) : Cut (skipSpaces cs) r := by
  rw [line?, Option.bind_eq_bind, Option.bind_eq_some_iff] at hline
  obtain ⟨⟨content, ts⟩, hcontent, hend⟩ := hline
  obtain ⟨r', hr, hpair⟩ := Option.bind_eq_some_iff.mp hend
  obtain rfl : r' = r := congrArg Prod.snd (Option.some.inj hpair)
  generalize skipSpaces cs = zs at h hcontent ⊢
  cases zs with
  | nil =>
      cases hcontent
      exact cut_of_breakOrEnd? hr
  | cons c zs =>
      by_cases hlf : c = '\n'
      · subst hlf
        cases hcontent
        exact cut_of_breakOrEnd? hr
      by_cases hcr : c = '\r'
      · subst hcr
        cases hcontent
        exact cut_of_breakOrEnd? hr
      · rw [lineContent?_of_blank (h c (List.mem_cons_self ..)) hlf hcr] at hcontent
        cases hcontent

theorem gap_of_lines? : ∀ {fuel : Nat} {cs : List Char} {ls : List Line}, Blank cs →
    lines? fuel cs = some ls → Gap cs []
  | _, [], _, _, _ => .nil []
  | fuel + 1, c :: cs, _, hblank, h => by
      rw [lines?, Option.bind_eq_bind, Option.bind_eq_some_iff] at h
      · obtain ⟨⟨line, r⟩, hline, hrest⟩ := h
        obtain ⟨ls, hls, -⟩ := Option.bind_eq_some_iff.mp hrest
        -- The line is a gap up to what follows it, and that is blank again.
        have hgap : Gap (c :: cs) r :=
          (gap_skipSpaces _).trans (cut_of_line? (hblank.of_gap (gap_skipSpaces _)) hline).gap
        exact hgap.trans (gap_of_lines? (hblank.of_gap hgap) hls)
      · exact List.cons_ne_nil c cs

/-- **A blank that has no place in a document** makes a text of blanks none. -/
theorem parse?_of_stray {cs : List Char} (hblank : Blank cs) (hstray : ¬ Gap cs []) :
    parse? cs = none := by
  have hmark : skipMark cs = cs := by
    rw [skipMark]
    rintro r rfl
    exact (ne_of_blank (hblank _ (List.mem_cons_self ..))).2.2.2.2.2 rfl
  have hlines : lines? cs.length cs = none := by
    cases h : lines? cs.length cs with
    | none => rfl
    | some ls => exact absurd (gap_of_lines? hblank h) hstray
  rw [parse?, hmark, hlines]
  rfl

end Toml

/-! ## Blank configurations -/

namespace Config

theorem parse_of_gap {text : String} {body : List Char}
    (hmarked : Toml.Marked text.toList body) (hgap : Toml.Gap body []) : parse text = .ok {} := by
  have hdecode : decode [] = .ok {} :=
    decode_of_agrees (fun _ he => absurd he List.not_mem_nil) fun _ _ => rfl
  rw [parse, Toml.parse?_of_gap hmarked hgap]
  show (decode []).mapError _ = _
  rw [hdecode]
  rfl

theorem parse_of_stray {text : String} (hblank : Toml.Blank text.toList)
    (hstray : ¬ Toml.Gap text.toList []) : parse text = .error .malformed := by
  rw [parse, Toml.parse?_of_stray hblank hstray]

end Config

/-! ## The shortcut -/

namespace Plan

/-- The plan for a text that is always read as a document. -/
def ofDocument (text : String) (o : Overrides) : Except Error Plan := do
  let cfg ← (Config.parse text).mapError .parse
  (resolve cfg o).mapError .resolve

/-- Both come to the same plan, or neither comes to one. -/
def SameOutcome (x y : Except Error Plan) : Prop := ∀ p, x = .ok p ↔ y = .ok p

/-- The text is blank, but not all of its blanks may stand in a document:
one is neither a space nor a tab nor part of a line break. -/
def Stray (text : String) : Prop :=
  Text.isBlank text = true ∧ ¬ Toml.Gap text.toList []

theorem blank_of_isBlank {text : String} (h : Text.isBlank text = true) :
    Toml.Blank text.toList := List.all_eq_true.mp h

theorem configOf_of_not_stray {text : String} (h : ¬ Stray text) :
    configOf text = Config.parse text := by
  rw [configOf]
  split
  · rename_i hblank
    have hgap : Toml.Gap text.toList [] := not_not.mp fun hgap => h ⟨hblank, hgap⟩
    exact (Config.parse_of_gap (.bare _) hgap).symm
  · rfl

theorem Stray.configOf {text : String} (h : Stray text) : Plan.configOf text = .ok {} := if_pos h.1

theorem Stray.parse {text : String} (h : Stray text) : Config.parse text = .error .malformed :=
  Config.parse_of_stray (blank_of_isBlank h.1) h.2

theorem Stray.ofDocument {text : String} (h : Stray text) (o : Overrides) :
    Plan.ofDocument text o = .error (.parse .malformed) := by
  rw [Plan.ofDocument, h.parse]
  rfl

/-- **The shortcut for blank texts.** A text comes to the very plan or error
that it comes to as a document, unless it is stray. A stray text is no
document, yet it is taken for the empty configuration; that shows whenever
the overrides alone resolve, and at no other text. -/
theorem shortcut_agrees_unless_stray (text : String) (o : Overrides) :
    (¬ Stray text → ofText text o = ofDocument text o)
      ∧ (Stray text → Config.parse text = .error .malformed ∧ ofText text o = ofText "" o)
      ∧ (SameOutcome (ofText text o) (ofDocument text o)
          ↔ (Stray text → ∀ p, resolve {} o ≠ .ok p)) := by
  have hagree : ¬ Stray text → ofText text o = ofDocument text o := fun h => by
    rw [ofText, configOf_of_not_stray h]
    rfl
  have hempty : Plan.configOf "" = .ok {} := by decide +kernel
  refine ⟨hagree, fun h => ⟨h.parse, by rw [ofText_eq, ofText_eq, h.configOf, hempty]⟩, ?_⟩
  by_cases h : Stray text
  · have htext : ofText text o = (resolve {} o).mapError .resolve := by
      rw [ofText_eq, h.configOf]
    simp only [SameOutcome, htext, mapError_ok_iff, h.ofDocument, h, reduceCtorEq, iff_false,
      forall_const, ne_eq]
  · rw [hagree h]
    exact ⟨fun _ hstray => absurd hstray h, fun _ _ => Iff.rfl⟩

/-- A vertical tab is blank but no part of any document: read as one it is
malformed, and for the shortcut it is an empty configuration. -/
theorem vertical_tab_is_no_document :
    Text.isBlank "\u000b" = true ∧ Config.parse "\u000b" = .error .malformed
      ∧ (∃ p, ofText "\u000b" {} = .ok p)
      ∧ ¬ SameOutcome (ofText "\u000b" {}) (ofDocument "\u000b" {}) := by
  have hblank : Text.isBlank "\u000b" = true := by decide +kernel
  have hparse : Config.parse "\u000b" = .error .malformed := by decide +kernel
  have hdocument : ofDocument "\u000b" {} = .error (.parse .malformed) := by
    rw [ofDocument, hparse]
    rfl
  obtain ⟨p, hp⟩ : ∃ p, ofText "\u000b" {} = .ok p := by
    refine ⟨⟨"default", .standard Preset.accepted⟩, ?_⟩
    decide +kernel
  refine ⟨hblank, hparse, ⟨p, hp⟩, fun hsame => ?_⟩
  have hok := (hsame p).mp hp
  rw [hdocument] at hok
  cases hok

end Plan

end AdvisoryGate
