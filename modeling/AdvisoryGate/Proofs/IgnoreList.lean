import AdvisoryGate.Advisory
import AdvisoryGate.Proofs.Lemmas

/-!
# Merging ids into an ignore list

Ids are merged one at a time, and an id that is listed already is skipped.
The invariant is that the list holds the first occurrences among all ids
that have been offered so far (`ids_pushUnique` for one step, `ids_merge`
for a run). `extendUnique_eq` separates the two things that merging what a
user wrote does: it refuses the first blank id, and otherwise merges the
ids without the blanks around them.
-/

namespace AdvisoryGate

/-- What a user wrote, without the blanks around it, as an id. -/
def AdvisoryId.cut (raw : String) : AdvisoryId := ⟨Text.trim raw⟩

theorem AdvisoryId.ofText?_eq (raw : String) :
    ofText? raw = if Text.isBlank raw then .error ⟨raw⟩ else .ok (cut raw) := rfl

namespace IgnoreList

/-- Merge ids into a list, in order. -/
def merge (l : IgnoreList) (ids : List AdvisoryId) : IgnoreList :=
  ids.foldl (fun l id => (l.pushUnique id).1) l

theorem contains_iff {l : IgnoreList} {id : AdvisoryId} : l.contains id = true ↔ id ∈ l.ids := by
  rw [contains, List.contains_iff_mem]

/-- One step keeps the invariant. -/
theorem ids_pushUnique {l : IgnoreList} {offered : List AdvisoryId}
    (h : l.ids = offered.eraseDups) (id : AdvisoryId) :
    (l.pushUnique id).1.ids = (offered ++ [id]).eraseDups := by
  rw [pushUnique, eraseDups_concat]
  by_cases hid : id ∈ offered
  · rw [if_pos (contains_iff.mpr (by rw [h]; exact List.mem_eraseDups.mpr hid)), if_pos hid]
    exact h
  · have hl : ¬ l.contains id = true := fun hc =>
      hid (List.mem_eraseDups.mp (h ▸ contains_iff.mp hc))
    rw [if_neg hl, if_neg hid, push, h]

theorem ids_merge : ∀ {ids : List AdvisoryId} {l : IgnoreList} {offered : List AdvisoryId},
    l.ids = offered.eraseDups → (l.merge ids).ids = (offered ++ ids).eraseDups
  | [], _, offered, h => by rw [List.append_nil]; exact h
  | id :: ids, l, offered, h => by
      have ih := @ids_merge ids _ _ (ids_pushUnique h id)
      rw [List.append_assoc, List.singleton_append] at ih
      exact ih

/-- Merging what a user wrote fails at the first blank id, and only there. -/
theorem extendUnique_eq : ∀ (raws : List String) (l : IgnoreList),
    l.extendUnique raws = match raws.find? Text.isBlank with
      | some raw => .error ⟨raw⟩
      | none => .ok (l.merge (raws.map .cut))
  | [], _ => rfl
  | raw :: raws, l => by
      rw [extendUnique, AdvisoryId.ofText?_eq, List.find?_cons]
      cases Text.isBlank raw with
      | true => rfl
      | false => exact extendUnique_eq raws _

theorem extendUnique_ok {l l' : IgnoreList} {raws : List String}
    (h : l.extendUnique raws = .ok l') : l' = l.merge (raws.map .cut) := by
  rw [extendUnique_eq] at h
  split at h
  · cases h
  · exact (Except.ok.inj h).symm

end IgnoreList

end AdvisoryGate
