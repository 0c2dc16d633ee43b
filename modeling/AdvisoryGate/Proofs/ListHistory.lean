import AdvisoryGate.Proofs.IgnoreList
import Mathlib.Data.List.Nodup

/-!
# What a list tells about its history

A list is built by pushing ids, with their repeats or without, and asked in
between which ids it has. `run_tells_history` says what every such run
comes to, in terms of the starting list and the steps alone: what stands in
front, what each step answers and changes, and how often each id is listed
in the end.

One invariant carries it: an id is listed exactly if it is one of the
starting list or has been pushed in either manner (`mem_run_iff`). The number
of its occurrences needs a second look at the order of the steps: a
`pushUnique` adds an id only where nothing has put it into the list before
(`UniqueFirst`), and so at most once in a run.
-/

namespace AdvisoryGate.IgnoreList

/-! ## Runs -/

/-- What is done with a list while it is built. -/
inductive Step
  | push (id : AdvisoryId)
  | pushUnique (id : AdvisoryId)
  | contains (id : AdvisoryId)
  deriving DecidableEq

/-- The list behind a step, and what the step answers. -/
def step (l : IgnoreList) : Step → IgnoreList × Option Bool
  | .push id => (l.push id, none)
  | .pushUnique id => ((l.pushUnique id).1, some (l.pushUnique id).2)
  | .contains id => (l, some (l.contains id))

def run (l : IgnoreList) (steps : List Step) : IgnoreList :=
  steps.foldl (fun l s => (l.step s).1) l

theorem run_cons (l : IgnoreList) (s : Step) (steps : List Step) :
    l.run (s :: steps) = (l.step s).1.run steps := rfl

theorem run_append (l : IgnoreList) (steps more : List Step) :
    l.run (steps ++ more) = (l.run steps).run more := List.foldl_append

/-- The id is one of the starting list, or some step has pushed it. -/
def Offered (start : IgnoreList) (steps : List Step) (id : AdvisoryId) : Prop :=
  id ∈ start.ids ∨ .push id ∈ steps ∨ .pushUnique id ∈ steps

instance (start : IgnoreList) (steps : List Step) (id : AdvisoryId) :
    Decidable (Offered start steps id) := inferInstanceAs (Decidable (_ ∨ _ ∨ _))

/-- Some `pushUnique` of the id precedes every `push` of it. -/
def UniqueFirst (id : AdvisoryId) (steps : List Step) : Prop :=
  ∃ before after, steps = before ++ .pushUnique id :: after ∧ .push id ∉ before

theorem uniqueFirst_cons_iff {id : AdvisoryId} {s : Step} {steps : List Step} :
    UniqueFirst id (s :: steps) ↔ s = .pushUnique id ∨ s ≠ .push id ∧ UniqueFirst id steps := by
  constructor
  · rintro ⟨before, after, heq, hbefore⟩
    cases before with
    | nil => exact .inl (List.cons.inj heq).1
    | cons s' before =>
        obtain ⟨rfl, rfl⟩ := List.cons.inj heq
        rw [List.mem_cons, not_or] at hbefore
        exact .inr ⟨Ne.symm hbefore.1, before, after, rfl, hbefore.2⟩
  · rintro (rfl | ⟨hs, before, after, rfl, hbefore⟩)
    · exact ⟨[], steps, rfl, List.not_mem_nil⟩
    · refine ⟨s :: before, after, rfl, ?_⟩
      rw [List.mem_cons, not_or]
      exact ⟨hs.symm, hbefore⟩

theorem not_uniqueFirst_nil (id : AdvisoryId) : ¬ UniqueFirst id [] := by
  rintro ⟨before, after, h, -⟩
  cases before <;> cases h

instance decidableUniqueFirst (id : AdvisoryId) :
    ∀ steps : List Step, Decidable (UniqueFirst id steps)
  | [] => .isFalse (not_uniqueFirst_nil id)
  | _ :: steps =>
    have := decidableUniqueFirst id steps
    decidable_of_iff _ uniqueFirst_cons_iff.symm

/-! ## One step -/

section OneStep

variable {l : IgnoreList} {s : Step} {id : AdvisoryId}

theorem pushUnique_of_mem (h : id ∈ l.ids) : l.pushUnique id = (l, false) := by
  rw [pushUnique, if_pos (contains_iff.mpr h)]

theorem pushUnique_of_not_mem (h : id ∉ l.ids) : l.pushUnique id = (l.push id, true) := by
  rw [pushUnique, if_neg fun hc => h (contains_iff.mp hc)]

/-- What a step puts at the end of the list. -/
def added (l : IgnoreList) : Step → List AdvisoryId
  | .push id => [id]
  | .pushUnique id => if id ∈ l.ids then [] else [id]
  | .contains _ => []

theorem ids_step (l : IgnoreList) (s : Step) : (l.step s).1.ids = l.ids ++ l.added s := by
  cases s with
  | push id => rfl
  | pushUnique id =>
      rw [step, added]
      by_cases h : id ∈ l.ids
      · rw [pushUnique_of_mem h, if_pos h, List.append_nil]
      · rw [pushUnique_of_not_mem h, if_neg h]
        rfl
  | contains id => exact (List.append_nil _).symm

theorem mem_added_iff : id ∈ l.added s ↔ s = .push id ∨ s = .pushUnique id ∧ id ∉ l.ids := by
  cases s with
  | push id' => simp [added, eq_comm]
  | pushUnique id' =>
      rw [added]
      split
      · rename_i h
        constructor
        · intro hid
          cases hid
        · rintro (hs | ⟨hs, hid⟩)
          · cases hs
          · cases hs
            exact absurd h hid
      · rename_i h
        rw [List.mem_singleton]
        constructor
        · rintro rfl
          exact .inr ⟨rfl, h⟩
        · rintro (hs | ⟨hs, -⟩)
          · cases hs
          · cases hs
            rfl
  | contains id' => simp [added]

theorem nodup_added (l : IgnoreList) (s : Step) : (l.added s).Nodup := by
  cases s with
  | push id => exact List.nodup_singleton id
  | pushUnique id =>
      rw [added]
      split
      · exact List.nodup_nil
      · exact List.nodup_singleton id
  | contains id => exact List.nodup_nil

theorem mem_step_iff :
    id ∈ (l.step s).1.ids ↔ id ∈ l.ids ∨ s = .push id ∨ s = .pushUnique id := by
  rw [ids_step, List.mem_append, mem_added_iff]
  tauto

theorem count_step (l : IgnoreList) (s : Step) (id : AdvisoryId) :
    (l.step s).1.ids.count id
      = l.ids.count id + if s = .push id ∨ s = .pushUnique id ∧ id ∉ l.ids then 1 else 0 := by
  rw [ids_step, List.count_append, (nodup_added l s).count]
  simp only [mem_added_iff]

end OneStep

/-! ## All steps -/

section AllSteps

variable (start : IgnoreList) (steps : List Step) (id : AdvisoryId) (ids : List AdvisoryId)

theorem isPrefix_run : start.ids <+: (start.run steps).ids := by
  induction steps generalizing start with
  | nil => exact List.prefix_rfl
  | cons s steps ih =>
      have hstep : start.ids <+: (start.step s).1.ids := by
        rw [ids_step]
        exact List.prefix_append _ _
      exact hstep.trans (ih _)

/-- The invariant of a run. -/
theorem mem_run_iff : id ∈ (start.run steps).ids ↔ Offered start steps id := by
  induction steps generalizing start with
  | nil => simp [run, Offered]
  | cons s steps ih =>
      rw [run_cons, ih, Offered, Offered, mem_step_iff]
      simp only [List.mem_cons, eq_comm (b := s)]
      tauto

/-- Each `push` lists the id once more, and so does one `pushUnique` if
nothing has put the id into the list before it. -/
theorem count_run : (start.run steps).ids.count id = start.ids.count id
    + steps.count (.push id) + if id ∉ start.ids ∧ UniqueFirst id steps then 1 else 0 := by
  induction steps generalizing start with
  | nil => simp [run, not_uniqueFirst_nil]
  | cons s steps ih =>
      rw [run_cons, ih, count_step]
      simp only [mem_step_iff, uniqueFirst_cons_iff]
      by_cases hpush : s = .push id
      · -- The id is listed from here on, so no `pushUnique` adds it any more.
        subst hpush
        rw [List.count_cons_self, if_pos (.inl rfl), if_neg (by simp), if_neg (by simp)]
        omega
      · rw [List.count_cons_of_ne hpush]
        by_cases hunique : s = .pushUnique id
        · by_cases hid : id ∈ start.ids <;> simp [hunique, hid]
          omega
        · simp [hpush, hunique]

theorem run_of_listed {l : IgnoreList} : ∀ {ids : List AdvisoryId}, (∀ id ∈ ids, id ∈ l.ids) →
    l.run (ids.map .pushUnique) = l
  | [], _ => rfl
  | id :: ids, h => by
      obtain ⟨hid, hids⟩ := List.forall_mem_cons.mp h
      rw [List.map_cons, run_cons, step, pushUnique_of_mem hid]
      exact run_of_listed hids

theorem nodup_run_pushUnique_iff :
    (start.run (ids.map .pushUnique)).ids.Nodup ↔ start.ids.Nodup := by
  constructor
  · exact fun h => h.sublist (isPrefix_run start _).sublist
  · intro h
    rw [List.nodup_iff_count_le_one] at h ⊢
    intro id
    have hstart := h id
    have hpush : (ids.map Step.pushUnique).count (.push id) = 0 := by
      rw [List.count_eq_zero]
      intro hmem
      obtain ⟨id', -, hid'⟩ := List.mem_map.mp hmem
      cases hid'
    rw [count_run, hpush]
    split
    · rename_i hnew
      have hnone : start.ids.count id = 0 := List.count_eq_zero.mpr hnew.1
      omega
    · omega

theorem run_pushUnique_twice :
    start.run (ids.map .pushUnique ++ ids.map .pushUnique) = start.run (ids.map .pushUnique) := by
  rw [run_append]
  refine run_of_listed fun id hid => ?_
  rw [mem_run_iff]
  exact .inr (.inr (List.mem_map_of_mem hid))

end AllSteps

/-! ## What a run comes to -/

/-- **A run is told by its history.** Behind any steps the starting list
still stands in front. A `pushUnique` that comes next answers `true` exactly
if the id is neither in the starting list nor has been pushed in either
manner, and the list grows by one exactly then; asking for an id answers
`true` in all other cases, and changes nothing. An id is listed as often as
in the starting list, once more for each `push`, and once more if a
`pushUnique` of it precedes all of these. So pushing without repeats brings
none into a list, and doing it a second time changes nothing. -/
theorem run_tells_history (start : IgnoreList) (steps : List Step) :
    start.ids <+: (start.run steps).ids
      ∧ (∀ id, (((start.run steps).step (.pushUnique id)).2 = some true
            ↔ ¬ Offered start steps id)
          ∧ (start.run (steps ++ [.pushUnique id])).length
            = (start.run steps).length + if Offered start steps id then 0 else 1)
      ∧ (∀ id, (((start.run steps).step (.contains id)).2 = some true
            ↔ Offered start steps id)
          ∧ start.run (steps ++ [.contains id]) = start.run steps)
      ∧ (∀ id, (start.run steps).ids.count id = start.ids.count id + steps.count (.push id)
          + if id ∉ start.ids ∧ UniqueFirst id steps then 1 else 0)
      ∧ ∀ ids : List AdvisoryId,
          ((start.run (ids.map .pushUnique)).ids.Nodup ↔ start.ids.Nodup)
          ∧ start.run (ids.map .pushUnique ++ ids.map .pushUnique)
            = start.run (ids.map .pushUnique) := by
  refine ⟨isPrefix_run start steps, fun id => ?_, fun id => ⟨?_, ?_⟩,
    fun id => count_run start steps id, fun ids => ⟨nodup_run_pushUnique_iff start ids,
      run_pushUnique_twice start ids⟩⟩
  · rw [run_append, run_cons, step]
    by_cases h : Offered start steps id
    · rw [pushUnique_of_mem ((mem_run_iff start steps id).mpr h), if_pos h]
      exact ⟨by simp [h], rfl⟩
    · rw [pushUnique_of_not_mem (mt (mem_run_iff start steps id).mp h), if_neg h]
      exact ⟨by simp [h], List.length_append⟩
  · rw [step, Option.some.injEq, contains_iff, mem_run_iff]
  · rw [run_append]
    rfl

end AdvisoryGate.IgnoreList
