import AdvisoryGate.Proofs.IgnoreList
import AdvisoryGate.Proofs.Trimming

/-!
# The normal form of an advisory id

What a user writes as an id is `White_Space`, then something that begins
and ends visibly, then `White_Space` again, unless nothing of it is visible
at all. `Framed` says this of a text without a word about cutting. There is
at most one way to frame a text (`Framed.unique`) and one if anything in it
is visible (`framed_trim`), so the middle is the id.

`ofText?_takes_the_core` collects what follows: which texts are refused,
what the others become, that an id read again is the same id, and that two
texts give the same id exactly if they differ at their ends only.
-/

namespace AdvisoryGate

namespace Text

/-! ## White space -/

/-- The code points with the property `White_Space`, as ranges. -/
def whiteSpaceRanges : List (Nat × Nat) :=
  [(0x9, 0xd), (0x20, 0x20), (0x85, 0x85), (0xa0, 0xa0), (0x1680, 0x1680), (0x2000, 0x200a),
   (0x2028, 0x2029), (0x202f, 0x202f), (0x205f, 0x205f), (0x3000, 0x3000)]

def WhiteSpace (c : Char) : Prop :=
  ∃ r ∈ whiteSpaceRanges, r.1 ≤ c.toNat ∧ c.toNat ≤ r.2

theorem isBlankChar_iff {c : Char} : isBlankChar c = true ↔ WhiteSpace c := by
  -- The list of blanks is the ranges, written out.
  have hcodes : blanks.map Char.toNat
      = whiteSpaceRanges.flatMap fun r => List.range' r.1 (r.2 + 1 - r.1) := by decide +kernel
  have hmem : c ∈ blanks ↔ c.toNat ∈ blanks.map Char.toNat := by
    simp only [List.mem_map, Char.toNat_inj, exists_eq_right]
  rw [isBlankChar, List.contains_iff_mem, hmem, hcodes, List.mem_flatMap, WhiteSpace]
  refine exists_congr fun r => and_congr_right fun _ => ?_
  rw [List.mem_range'_1]
  omega

theorem isBlankChar_eq_false_iff {c : Char} : isBlankChar c = false ↔ ¬ WhiteSpace c := by
  rw [← Bool.not_eq_true, isBlankChar_iff]

/-! ## Framed texts -/

/-- The text is `core` between white space, and `core` begins and ends with
other characters. -/
structure Framed (text u core v : List Char) : Prop where
  whole : text = u ++ core ++ v
  before : ∀ c ∈ u, WhiteSpace c
  after : ∀ c ∈ v, WhiteSpace c
  first : ∃ c, core.head? = some c ∧ ¬ WhiteSpace c
  last : ∃ c, core.getLast? = some c ∧ ¬ WhiteSpace c

section Framed

variable {text u core v u' core' v' : List Char}

/-- Where the white space at the start ends is decided by the text. -/
theorem takeWhile_leading (hu : ∀ c ∈ u, WhiteSpace c)
    (hcore : ∃ c, core.head? = some c ∧ ¬ WhiteSpace c) :
    (u ++ core).takeWhile isBlankChar = u := by
  obtain ⟨c, hc, hvisible⟩ := hcore
  refine takeWhile_run (fun d hd => isBlankChar_iff.mpr (hu d hd)) fun d hd => ?_
  obtain rfl : c = d := Option.some.inj (hc.symm.trans hd)
  exact isBlankChar_eq_false_iff.mpr hvisible

theorem eq_of_leading (hu : ∀ c ∈ u, WhiteSpace c) (hu' : ∀ c ∈ u', WhiteSpace c)
    (hcore : ∃ c, core.head? = some c ∧ ¬ WhiteSpace c)
    (hcore' : ∃ c, core'.head? = some c ∧ ¬ WhiteSpace c)
    (heq : u ++ core = u' ++ core') : u = u' ∧ core = core' := by
  obtain rfl : u = u' := by
    rw [← takeWhile_leading hu hcore, heq, takeWhile_leading hu' hcore']
  exact ⟨rfl, List.append_cancel_left heq⟩

theorem Framed.reverse (h : Framed text u core v) :
    Framed text.reverse v.reverse core.reverse u.reverse where
  whole := by rw [h.whole]; simp
  before := fun c hc => h.after c (List.mem_reverse.mp hc)
  after := fun c hc => h.before c (List.mem_reverse.mp hc)
  first := by rw [List.head?_reverse]; exact h.last
  last := by rw [List.getLast?_reverse]; exact h.first

theorem Framed.head?_append (h : Framed text u core v) :
    ∃ c, (core ++ v).head? = some c ∧ ¬ WhiteSpace c := by
  obtain ⟨c, hc, hvisible⟩ := h.first
  exact ⟨c, by rw [List.head?_append, hc]; rfl, hvisible⟩

theorem Framed.unique (h : Framed text u core v) (h' : Framed text u' core' v') :
    u = u' ∧ core = core' ∧ v = v' := by
  have hwhole := h.whole.symm.trans h'.whole
  rw [List.append_assoc, List.append_assoc] at hwhole
  obtain ⟨rfl, hrest⟩ := eq_of_leading h.before h'.before h.head?_append h'.head?_append hwhole
  -- From the other end, the white space that follows is what leads.
  have hend : v.reverse ++ core.reverse = v'.reverse ++ core'.reverse := by
    rw [← List.reverse_append, ← List.reverse_append, hrest]
  obtain ⟨hv, hcore⟩ := eq_of_leading h.reverse.before h'.reverse.before h.reverse.first
    h'.reverse.first hend
  exact ⟨rfl, List.reverse_inj.mp hcore, List.reverse_inj.mp hv⟩

theorem Framed.widen (h : Framed text u core v) (hu : ∀ c ∈ u', WhiteSpace c)
    (hv : ∀ c ∈ v', WhiteSpace c) : Framed (u' ++ text ++ v') (u' ++ u) core (v ++ v') where
  whole := by rw [h.whole]; simp only [List.append_assoc]
  before := List.forall_mem_append.mpr ⟨hu, h.before⟩
  after := List.forall_mem_append.mpr ⟨h.after, hv⟩
  first := h.first
  last := h.last

theorem Framed.not_blank (h : Framed text u core v) : ¬ ∀ c ∈ text, WhiteSpace c := by
  intro hblank
  obtain ⟨c, hc, hvisible⟩ := h.first
  refine hvisible (hblank c ?_)
  rw [h.whole]
  simp [List.mem_of_mem_head? hc]

end Framed

/-! ## What cutting leaves -/

section Trim

variable {s : String} {u core v : List Char}

theorem isBlank_iff_whiteSpace : isBlank s = true ↔ ∀ c ∈ s.toList, WhiteSpace c := by
  simp only [isBlank, List.all_eq_true, isBlankChar_iff]

theorem isBlank_eq_false_iff : isBlank s = false ↔ ¬ ∀ c ∈ s.toList, WhiteSpace c := by
  rw [← Bool.not_eq_true, isBlank_iff_whiteSpace]

theorem isBlank_iff_trim_eq_empty : isBlank s = true ↔ trim s = "" := by
  constructor
  · intro h
    by_contra hne
    have hnil : (trim s).toList ≠ [] := mt String.toList_eq_nil_iff.mp hne
    have hvisible := (tight_trim s).head _ (List.head?_eq_some_head hnil)
    rw [← isBlank_trim, isBlank, List.all_eq_true] at h
    rw [h _ (List.head_mem hnil)] at hvisible
    cases hvisible
  · intro h
    rw [← isBlank_trim, h]
    rfl

/-- A text with something visible in it is framed, around what `trim` leaves. -/
theorem framed_trim (h : isBlank s = false) :
    ∃ u v, Framed s.toList u (trim s).toList v := by
  obtain ⟨u, v, hwhole, hu, hv⟩ := exists_trim s
  have hne : (trim s).toList ≠ [] := by
    intro hnil
    rw [isBlank_iff_trim_eq_empty.mpr (String.toList_eq_nil_iff.mp hnil)] at h
    cases h
  have hfirst := List.head?_eq_some_head hne
  have hlast := List.getLast?_eq_some_getLast hne
  exact ⟨u, v, hwhole, fun c hc => isBlankChar_iff.mp (hu c hc),
    fun c hc => isBlankChar_iff.mp (hv c hc),
    ⟨_, hfirst, isBlankChar_eq_false_iff.mp ((tight_trim s).head _ hfirst)⟩,
    ⟨_, hlast, isBlankChar_eq_false_iff.mp ((tight_trim s).last _ hlast)⟩⟩

theorem Framed.isBlank_eq_false (h : Framed s.toList u core v) : isBlank s = false :=
  isBlank_eq_false_iff.mpr h.not_blank

theorem Framed.toList_trim (h : Framed s.toList u core v) : (trim s).toList = core := by
  obtain ⟨u', v', htrim⟩ := framed_trim h.isBlank_eq_false
  exact (htrim.unique h).2.1

/-- The texts are the same but for white space at their ends. -/
def SameInside (s t : String) : Prop :=
  ∃ core u v u' v', s.toList = u ++ core ++ v ∧ t.toList = u' ++ core ++ v'
    ∧ (∀ c ∈ u ++ v, WhiteSpace c) ∧ ∀ c ∈ u' ++ v', WhiteSpace c

theorem SameInside.symm {t : String} : SameInside s t → SameInside t s := by
  rintro ⟨core, u, v, u', v', hs, ht, huv, huv'⟩
  exact ⟨core, u', v', u, v, ht, hs, huv', huv⟩

theorem sameInside_of_trim_eq {t : String} (h : trim s = trim t) : SameInside s t := by
  obtain ⟨u, v, hs, hu, hv⟩ := exists_trim s
  obtain ⟨u', v', ht, hu', hv'⟩ := exists_trim t
  rw [← h] at ht
  refine ⟨_, u, v, u', v', hs, ht, fun c hc => isBlankChar_iff.mp ?_,
    fun c hc => isBlankChar_iff.mp ?_⟩
  · exact (List.mem_append.mp hc).elim (hu c) (hv c)
  · exact (List.mem_append.mp hc).elim (hu' c) (hv' c)

theorem SameInside.trim_eq_of_visible {t : String} (h : SameInside s t)
    (hs : isBlank s = false) : trim s = trim t := by
  obtain ⟨core, u, v, u', v', hwhole, hwhole', huv, huv'⟩ := h
  rw [List.forall_mem_append] at huv huv'
  have hcore : isBlank (String.ofList core) = false := by
    rw [isBlank_eq_false_iff] at hs ⊢
    rw [String.toList_ofList]
    refine fun hblank => hs ?_
    rw [hwhole, List.forall_mem_append, List.forall_mem_append]
    exact ⟨⟨huv.1, hblank⟩, huv.2⟩
  obtain ⟨a, b, hframed⟩ := framed_trim hcore
  rw [String.toList_ofList] at hframed
  have hframes := hframed.widen huv.1 huv.2
  have hframes' := hframed.widen huv'.1 huv'.2
  rw [← hwhole] at hframes
  rw [← hwhole'] at hframes'
  rw [← String.toList_inj, hframes.toList_trim, hframes'.toList_trim]

theorem sameInside_iff {t : String} : SameInside s t ↔ trim s = trim t := by
  refine ⟨fun h => ?_, sameInside_of_trim_eq⟩
  cases hs : isBlank s with
  | false => exact h.trim_eq_of_visible hs
  | true =>
      cases ht : isBlank t with
      | false => exact (h.symm.trim_eq_of_visible ht).symm
      | true => rw [isBlank_iff_trim_eq_empty.mp hs, isBlank_iff_trim_eq_empty.mp ht]

end Trim

end Text

/-! ## Ids -/

namespace AdvisoryId

open Text (WhiteSpace Framed SameInside)

theorem ofText?_of_blank {raw : String} (h : Text.isBlank raw = true) :
    ofText? raw = .error ⟨raw⟩ := by
  rw [ofText?_eq, if_pos h]

theorem ofText?_of_visible {raw : String} (h : Text.isBlank raw = false) :
    ofText? raw = .ok (cut raw) := by
  rw [ofText?_eq, h]
  rfl

theorem ofText?_error_iff {raw : String} {e : BlankId} :
    ofText? raw = .error e ↔ e.raw = raw ∧ ∀ c ∈ raw.toList, WhiteSpace c := by
  obtain ⟨raw'⟩ := e
  rw [← Text.isBlank_iff_whiteSpace]
  cases h : Text.isBlank raw with
  | true =>
      rw [ofText?_of_blank h, Except.error.injEq, BlankId.mk.injEq]
      exact ⟨fun h => ⟨h.symm, rfl⟩, fun h => h.1.symm⟩
  | false => simp [ofText?_of_visible h]

theorem ofText?_ok_iff {raw : String} {id : AdvisoryId} :
    ofText? raw = .ok id ↔ ∃ u v, Framed raw.toList u id.text.toList v := by
  constructor
  · intro h
    cases hblank : Text.isBlank raw with
    | true =>
        rw [ofText?_of_blank hblank] at h
        cases h
    | false =>
        rw [ofText?_of_visible hblank] at h
        obtain rfl := Except.ok.inj h
        exact Text.framed_trim hblank
  · rintro ⟨u, v, hframed⟩
    rw [ofText?_of_visible hframed.isBlank_eq_false, cut,
      String.toList_inj.mp hframed.toList_trim]

theorem ofText?_text {raw : String} {id : AdvisoryId} (h : ofText? raw = .ok id) :
    ofText? id.text = .ok id := by
  obtain ⟨u, v, hframed⟩ := ofText?_ok_iff.mp h
  refine ofText?_ok_iff.mpr ⟨[], [], ?_⟩
  exact ⟨(List.append_nil _).symm, List.forall_mem_nil _, List.forall_mem_nil _,
    hframed.first, hframed.last⟩

theorem toOption_ofText? (raw : String) :
    (ofText? raw).toOption = if Text.trim raw = "" then none else some (cut raw) := by
  cases h : Text.isBlank raw with
  | true => rw [ofText?_of_blank h, if_pos (Text.isBlank_iff_trim_eq_empty.mp h), Except.toOption]
  | false =>
      have hne : Text.trim raw ≠ "" := by
        rwa [ne_eq, ← Text.isBlank_iff_trim_eq_empty, Bool.not_eq_true]
      rw [ofText?_of_visible h, if_neg hne, Except.toOption]

theorem toOption_ofText?_eq_iff {raw other : String} :
    (ofText? raw).toOption = (ofText? other).toOption ↔ SameInside raw other := by
  rw [toOption_ofText?, toOption_ofText?, Text.sameInside_iff]
  constructor
  · intro h
    split at h <;> split at h
    · rename_i hraw hother
      exact hraw.trans hother.symm
    · cases h
    · cases h
    · exact congrArg AdvisoryId.text (Option.some.inj h)
  · intro h
    rw [cut, cut, h]

/-- **What a user's text says as an id.** It is refused, and told back as it
is, exactly if all of it is white space. Otherwise the id is what stands
between the white space at its two ends: there is one way only to cut a
text so that the middle begins and ends with other characters, and the
middle is kept character by character. An id read again is the same id, and
two texts give the same id, or none both, exactly if they differ in white
space at their ends at most. -/
theorem ofText?_takes_the_core (raw : String) :
    (∀ e, ofText? raw = .error e ↔ e.raw = raw ∧ ∀ c ∈ raw.toList, WhiteSpace c)
      ∧ (∀ id, ofText? raw = .ok id ↔ ∃ u v, Framed raw.toList u id.text.toList v)
      ∧ (∀ u core v u' core' v', Framed raw.toList u core v → Framed raw.toList u' core' v' →
          u = u' ∧ core = core' ∧ v = v')
      ∧ (∀ id, ofText? raw = .ok id → ofText? id.text = .ok id)
      ∧ ∀ other, (ofText? raw).toOption = (ofText? other).toOption ↔ SameInside raw other :=
  ⟨fun _ => ofText?_error_iff, fun _ => ofText?_ok_iff, fun _ _ _ _ _ _ => Framed.unique,
    fun _ => ofText?_text, fun _ => toOption_ofText?_eq_iff⟩

/-- Look-alikes at the ends of the core (here `U+200B` and `U+FEFF`) belong
to the id, and so does white space inside it. -/
theorem ofText?_takes_the_core_with_look_alikes :
    let raw := "\u3000\t\u200bA \u00a0B\ufeff\u2029"
    let id : AdvisoryId := ⟨"\u200bA \u00a0B\ufeff"⟩
    ofText? raw = .ok id ∧ ofText? id.text = .ok id
      ∧ ∀ u core v, Framed raw.toList u core v →
          u = ['\u3000', '\t'] ∧ core = id.text.toList ∧ v = ['\u2029'] := by
  intro raw id
  have hframed : Framed raw.toList ['\u3000', '\t'] id.text.toList ['\u2029'] := by
    refine ⟨by decide +kernel, ?_, ?_, ⟨'\u200b', by decide +kernel, ?_⟩,
      ⟨'\ufeff', by decide +kernel, ?_⟩⟩ <;>
      simp [← Text.isBlankChar_iff, Text.isBlankChar, Text.blanks]
  obtain ⟨-, hok, hunique, hagain, -⟩ := ofText?_takes_the_core raw
  have h : ofText? raw = .ok id := (hok id).mpr ⟨_, _, hframed⟩
  exact ⟨h, hagain id h, fun u core v hframed' => hunique _ _ _ _ _ _ hframed' hframed⟩

end AdvisoryId

end AdvisoryGate
