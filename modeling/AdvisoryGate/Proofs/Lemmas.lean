import Mathlib.Data.List.Induction
import Mathlib.Data.List.TakeDrop

/-!
# Successes, failures, leading characters and first occurrences

When a chain of fallible steps succeeds and where it stops, when a list of
optional things is there, where the characters of one class at the start of
a text end, that a text is read back from its bytes, and how the first
occurrences in a list change as it grows at its end. After these, no proof looks inside `Except.bind`, `List.span` or
`List.eraseDups` again.
-/

namespace AdvisoryGate

/-! ## Success -/

section Success

variable {ε ε' α β : Type}

theorem bind_ok_iff {x : Except ε α} {f : α → Except ε β} {b : β} :
    x >>= f = .ok b ↔ ∃ a, x = .ok a ∧ f a = .ok b := by
  cases x with
  | error e =>
      constructor
      · intro h; cases h
      · rintro ⟨_, h, _⟩; cases h
  | ok a =>
      constructor
      · intro h; exact ⟨a, rfl, h⟩
      · rintro ⟨_, h, hf⟩; cases h; exact hf

/-- Two steps and what follows them, or the first step and what follows it. -/
theorem exists_bind_ok_iff {x : Except ε α} {f : α → Except ε β} {P : β → Prop} :
    (∃ b, x >>= f = .ok b ∧ P b) ↔ ∃ a, x = .ok a ∧ ∃ b, f a = .ok b ∧ P b := by
  simp only [bind_ok_iff]
  constructor
  · rintro ⟨b, ⟨a, ha, hb⟩, h⟩
    exact ⟨a, ha, b, hb, h⟩
  · rintro ⟨a, ha, b, hb, h⟩
    exact ⟨b, ⟨a, ha, hb⟩, h⟩

theorem map_ok_iff {x : Except ε α} {f : α → β} {b : β} :
    x.map f = .ok b ↔ ∃ a, x = .ok a ∧ f a = b := by
  cases x <;> simp [Except.map]

theorem mapError_ok_iff {x : Except ε α} {f : ε → ε'} {a : α} :
    x.mapError f = .ok a ↔ x = .ok a := by
  cases x <;> simp [Except.mapError]

end Success

/-! ## Failure -/

section Failure

variable {ε ε' α β : Type}

theorem bind_error_iff {x : Except ε α} {f : α → Except ε β} {e : ε} :
    x >>= f = .error e ↔ x = .error e ∨ ∃ a, x = .ok a ∧ f a = .error e := by
  cases x with
  | error e' =>
      constructor
      · intro h
        cases h
        exact .inl rfl
      · rintro (h | ⟨_, h, _⟩)
        · cases h
          rfl
        · cases h
  | ok a =>
      constructor
      · intro h
        exact .inr ⟨a, rfl, h⟩
      · rintro (h | ⟨_, h, hf⟩)
        · cases h
        · cases h
          exact hf

theorem map_error_iff {x : Except ε α} {f : α → β} {e : ε} :
    x.map f = .error e ↔ x = .error e := by
  cases x <;> simp [Except.map]

theorem mapError_error_iff {x : Except ε α} {f : ε → ε'} {e' : ε'} :
    x.mapError f = .error e' ↔ ∃ e, x = .error e ∧ f e = e' := by
  cases x <;> simp [Except.mapError]

/-- Mapping stops at the first element that fails. -/
theorem mapM_error_iff {f : α → Except ε β} {e : ε} : ∀ {l : List α},
    l.mapM f = .error e ↔ ∃ before a after, l = before ++ a :: after
      ∧ (∀ x ∈ before, ∃ b, f x = .ok b) ∧ f a = .error e
  | [] => by
      rw [List.mapM_nil]
      constructor
      · intro h
        cases h
      · rintro ⟨before, a, after, h, -⟩
        cases before <;> cases h
  | x :: l => by
      rw [List.mapM_cons, bind_error_iff]
      simp only [bind_error_iff, mapM_error_iff (l := l)]
      constructor
      · rintro (hx | ⟨b, hx, ⟨before, a, after, rfl, hbefore, ha⟩ | ⟨_, -, h⟩⟩)
        · exact ⟨[], x, l, rfl, List.forall_mem_nil _, hx⟩
        · exact ⟨x :: before, a, after, rfl, List.forall_mem_cons.mpr ⟨⟨b, hx⟩, hbefore⟩, ha⟩
        · cases h
      · rintro ⟨before, a, after, h, hbefore, ha⟩
        cases before with
        | nil =>
            obtain ⟨rfl, rfl⟩ := List.cons.inj h
            exact .inl ha
        | cons y before =>
            obtain ⟨rfl, rfl⟩ := List.cons.inj h
            obtain ⟨⟨b, hb⟩, hbefore⟩ := List.forall_mem_cons.mp hbefore
            exact .inr ⟨b, hb, .inl ⟨before, a, after, rfl, hbefore, ha⟩⟩

/-- A fold whose state has no say in what fails stops at the first element
that does. -/
theorem foldlM_error_iff {step : β → α → Except ε β} {Fails : α → ε → Prop}
    (hstep : ∀ b a e, step b a = .error e ↔ Fails a e) {e : ε} : ∀ {l : List α} {b : β},
    l.foldlM step b = .error e ↔ ∃ before a after, l = before ++ a :: after
      ∧ (∀ x ∈ before, ∀ e, ¬ Fails x e) ∧ Fails a e
  | [], b => by
      rw [List.foldlM_nil]
      constructor
      · intro h
        cases h
      · rintro ⟨before, a, after, h, -⟩
        cases before <;> cases h
  | x :: l, b => by
      rw [List.foldlM_cons, bind_error_iff]
      simp only [foldlM_error_iff hstep (l := l), hstep]
      constructor
      · rintro (hx | ⟨b', hx, before, a, after, rfl, hbefore, ha⟩)
        · exact ⟨[], x, l, rfl, List.forall_mem_nil _, hx⟩
        · refine ⟨x :: before, a, after, rfl, List.forall_mem_cons.mpr ⟨?_, hbefore⟩, ha⟩
          intro e' he'
          rw [← hstep b, hx] at he'
          cases he'
      · rintro ⟨before, a, after, h, hbefore, ha⟩
        cases before with
        | nil =>
            obtain ⟨rfl, rfl⟩ := List.cons.inj h
            exact .inl ha
        | cons y before =>
            obtain ⟨rfl, rfl⟩ := List.cons.inj h
            obtain ⟨hx, hbefore⟩ := List.forall_mem_cons.mp hbefore
            cases hb : step b x with
            | error e' => exact absurd ((hstep b x e').mp hb) (hx e')
            | ok b' => exact .inr ⟨b', rfl, before, a, after, rfl, hbefore, ha⟩

end Failure

/-! ## All or nothing -/

section Options

variable {α β : Type} {f : β → Option α} {bs : List β} {as : List α}

theorem both_of_isSome_eq {x : Option α} {y : Option β} (h : x.isSome = y.isSome) :
    (x = none ∧ y = none) ∨ ∃ a b, x = some a ∧ y = some b := by
  cases x with
  | none =>
      rw [Option.isSome_none, eq_comm, Option.isSome_eq_false_iff, Option.isNone_iff_eq_none] at h
      exact .inl ⟨rfl, h⟩
  | some a =>
      rw [Option.isSome_some, eq_comm] at h
      obtain ⟨b, hb⟩ := Option.isSome_iff_exists.mp h
      exact .inr ⟨a, b, rfl, hb⟩

/-- A list of optional things is there if each of them is. -/
theorem isSome_mapM (f : β → Option α) (bs : List β) :
    (bs.mapM f).isSome = bs.all fun b => (f b).isSome := by
  induction bs with
  | nil => rfl
  | cons b bs ih =>
      rw [List.mapM_cons, List.all_cons, ← ih]
      cases f b with
      | none => rfl
      | some a => cases bs.mapM f <;> rfl

theorem mapM_cons_eq_some_iff {b : β} : (b :: bs).mapM f = some as ↔
    ∃ a as', f b = some a ∧ bs.mapM f = some as' ∧ as = a :: as' := by
  rw [List.mapM_cons]
  cases f b with
  | none => simp
  | some a => cases bs.mapM f <;> simp [eq_comm]

theorem findRev?_cons (p : α → Bool) (a : α) (as : List α) :
    (a :: as).findRev? p = (as.findRev? p).or (if p a = true then some a else none) := by
  rw [List.findRev?]
  cases as.findRev? p with
  | none => cases p a <;> rfl
  | some b => rfl

/-- The last that is picked out before is there as the last behind. -/
theorem findRev?_of_mapM {p : β → Bool} {q : α → Bool} (hpq : ∀ b a, f b = some a → p b = q a)
    (h : bs.mapM f = some as) : (bs.findRev? p).bind f = as.findRev? q := by
  induction bs generalizing as with
  | nil =>
      obtain rfl := Option.some.inj h
      rfl
  | cons b bs ih =>
      obtain ⟨a, as', ha, has, rfl⟩ := mapM_cons_eq_some_iff.mp h
      rw [findRev?_cons, findRev?_cons, ← ih has, hpq b a ha]
      cases hb : bs.findRev? p with
      | none => cases q a <;> simp [ha]
      | some b' =>
          rw [List.findRev?_eq_find?_reverse] at hb
          have hmem : b' ∈ bs := List.mem_reverse.mp (List.mem_of_find?_eq_some hb)
          have hall := (isSome_mapM f bs).symm.trans (congrArg Option.isSome has)
          obtain ⟨a', ha'⟩ := Option.isSome_iff_exists.mp (List.all_eq_true.mp hall b' hmem)
          rw [Option.some_or, Option.bind_some, ha', Option.some_or]

end Options

/-! ## Leading characters of one class -/

theorem dropWhile_run {p : Char → Bool} {w rest : List Char} (hw : ∀ c ∈ w, p c = true)
    (hrest : ∀ c ∈ rest.head?, p c = false) : (w ++ rest).dropWhile p = rest := by
  rw [List.dropWhile_append_of_pos hw]
  cases rest with
  | nil => rfl
  | cons c rest =>
      rw [List.dropWhile_cons_of_neg]
      rw [hrest c rfl]
      exact Bool.false_ne_true

theorem takeWhile_run {p : Char → Bool} {w rest : List Char} (hw : ∀ c ∈ w, p c = true)
    (hrest : ∀ c ∈ rest.head?, p c = false) : (w ++ rest).takeWhile p = w := by
  rw [List.takeWhile_append_of_pos hw]
  cases rest with
  | nil => rw [List.takeWhile_nil, List.append_nil]
  | cons c rest =>
      rw [List.takeWhile_cons_of_neg, List.append_nil]
      rw [hrest c rfl]
      exact Bool.false_ne_true

theorem span_run {p : Char → Bool} {w rest : List Char} (hw : ∀ c ∈ w, p c = true)
    (hrest : ∀ c ∈ rest.head?, p c = false) : (w ++ rest).span p = (w, rest) := by
  rw [List.span_eq_takeWhile_dropWhile, takeWhile_run hw hrest, dropWhile_run hw hrest]

/-! ## Bytes of a text -/

theorem fromUTF8?_toUTF8 (text : String) : String.fromUTF8? text.toUTF8 = some text :=
  dif_pos text.isValidUTF8

/-! ## First occurrences -/

section FirstOccurrences

variable {α : Type} [BEq α] [LawfulBEq α]

/-- A list that grows by one element gains a first occurrence exactly if
the element is new. -/
theorem eraseDups_concat (l : List α) (x : α) :
    (l ++ [x]).eraseDups = if x ∈ l then l.eraseDups else l.eraseDups ++ [x] := by
  rw [List.eraseDups_append]
  by_cases hx : x ∈ l <;> simp [List.removeAll, List.eraseDups_cons, hx]

theorem nodup_eraseDups (l : List α) : l.eraseDups.Nodup := by
  induction l using List.reverseRecOn with
  | nil => simp
  | append_singleton l x ih =>
      rw [eraseDups_concat]
      split
      · exact ih
      · rename_i hx
        rw [List.nodup_append]
        refine ⟨ih, by simp, ?_⟩
        intro a ha b hb
        obtain rfl := List.mem_singleton.mp hb
        rintro rfl
        exact hx (List.mem_eraseDups.mp ha)

/-- First occurrences stand in the order in which the elements first occur. -/
theorem idxOf_eraseDups_lt_iff {l : List α} {a b : α} (ha : a ∈ l) (hb : b ∈ l) :
    l.eraseDups.idxOf a < l.eraseDups.idxOf b ↔ l.idxOf a < l.idxOf b := by
  induction l using List.reverseRecOn with
  | nil => cases ha
  | append_singleton l x ih =>
      -- An element that is not new has its first occurrence in `l`, on both sides.
      have hold : ∀ {c}, c ∈ l →
          (l ++ [x]).eraseDups.idxOf c = l.eraseDups.idxOf c
            ∧ (l ++ [x]).idxOf c = l.idxOf c := by
        intro c hc
        rw [eraseDups_concat, List.idxOf_append, if_pos hc]
        refine ⟨?_, rfl⟩
        split
        · rfl
        · rw [List.idxOf_append, if_pos (List.mem_eraseDups.mpr hc)]
      have hnew : ∀ {c}, c ∈ l ++ [x] → c ∉ l →
          (l ++ [x]).eraseDups.idxOf c = l.eraseDups.length
            ∧ (l ++ [x]).idxOf c = l.length := by
        intro c hc hcl
        obtain rfl : c = x := by simpa [hcl] using hc
        rw [eraseDups_concat, if_neg hcl, List.idxOf_append, List.idxOf_append, if_neg hcl,
          if_neg (fun h => hcl (List.mem_eraseDups.mp h))]
        simp
      by_cases hal : a ∈ l <;> by_cases hbl : b ∈ l
      · rw [(hold hal).1, (hold hal).2, (hold hbl).1, (hold hbl).2]
        exact ih hal hbl
      · rw [(hold hal).1, (hold hal).2, (hnew hb hbl).1, (hnew hb hbl).2]
        have h1 := List.idxOf_lt_length_of_mem hal
        have h2 := List.idxOf_lt_length_of_mem (List.mem_eraseDups.mpr hal)
        exact ⟨fun _ => h1, fun _ => h2⟩
      · rw [(hold hbl).1, (hold hbl).2, (hnew ha hal).1, (hnew ha hal).2]
        have h1 := List.idxOf_lt_length_of_mem hbl
        have h2 := List.idxOf_lt_length_of_mem (List.mem_eraseDups.mpr hbl)
        omega
      · rw [(hnew ha hal).1, (hnew ha hal).2, (hnew hb hbl).1, (hnew hb hbl).2]
        omega

end FirstOccurrences

end AdvisoryGate
