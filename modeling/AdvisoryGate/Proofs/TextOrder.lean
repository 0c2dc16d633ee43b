import AdvisoryGate.Text.Order

/-!
# The order of texts is a linear order

`order` compares texts byte by byte. `Precedes` is the same in the words of
the library: the bytes of the one come lexicographically before those of the
other. It is transitive, no text precedes itself, and of two texts one
precedes the other unless they are equal. This is what sorting by the order
of texts needs, and what `order_isLE_iff` hands to it.
-/

namespace AdvisoryGate.Text

/-! ## Bytes -/

theorem compareBytes_eq_iff : ∀ {as bs : List UInt8},
    compareBytes as bs = .eq ↔ as = bs
  | [], [] => by simp [compareBytes]
  | [], _ :: _ | _ :: _, [] => by simp [compareBytes]
  | a :: as, b :: bs => by
      rw [compareBytes, List.cons.injEq]
      by_cases hlt : a < b
      · rw [if_pos hlt]
        constructor
        · intro h
          cases h
        · rintro ⟨rfl, -⟩
          exact absurd hlt (UInt8.lt_irrefl a)
      · by_cases hgt : b < a
        · rw [if_neg hlt, if_pos hgt]
          constructor
          · intro h
            cases h
          · rintro ⟨rfl, -⟩
            exact absurd hgt (UInt8.lt_irrefl a)
        · have heq : a = b := UInt8.le_antisymm (UInt8.not_lt.mp hgt) (UInt8.not_lt.mp hlt)
          rw [if_neg hlt, if_neg hgt, compareBytes_eq_iff]
          exact ⟨fun h => ⟨heq, h⟩, fun h => h.2⟩

theorem bytes_injective {s t : String} (h : bytes s = bytes t) : s = t := by
  have hencode : s.toList.utf8Encode = t.toList.utf8Encode := congrArg List.toByteArray h
  rw [String.utf8Encode_toList, String.utf8Encode_toList] at hencode
  exact String.toByteArray_inj.mp hencode

/-- Two texts are equal in the order of texts only if they are equal. -/
theorem order_eq_iff {s t : String} : order s t = .eq ↔ s = t := by
  rw [order, compareBytes_eq_iff]
  exact ⟨bytes_injective, congrArg _⟩

theorem compareBytes_lt_iff : ∀ {as bs : List UInt8},
    compareBytes as bs = .lt ↔ List.Lex (· < ·) as bs
  | [], [] | _ :: _, [] => by
      constructor <;>
        · intro h
          cases h
  | [], _ :: _ => ⟨fun _ => .nil, fun _ => rfl⟩
  | a :: as, b :: bs => by
      rw [compareBytes]
      by_cases hlt : a < b
      · rw [if_pos hlt]
        exact ⟨fun _ => .rel hlt, fun _ => rfl⟩
      · rw [if_neg hlt]
        by_cases hgt : b < a
        · rw [if_pos hgt]
          constructor
          · intro h
            cases h
          · intro h
            cases h with
            | rel h => exact absurd h hlt
            | cons h => exact absurd hgt (UInt8.lt_irrefl a)
        · have heq : a = b := UInt8.le_antisymm (UInt8.not_lt.mp hgt) (UInt8.not_lt.mp hlt)
          subst heq
          rw [if_neg hgt, compareBytes_lt_iff]
          constructor
          · exact .cons
          · intro h
            cases h with
            | rel h => exact absurd h hlt
            | cons h => exact h

theorem compareBytes_swap : ∀ as bs : List UInt8,
    (compareBytes as bs).swap = compareBytes bs as
  | [], [] => rfl
  | [], _ :: _ | _ :: _, [] => rfl
  | a :: as, b :: bs => by
      rw [compareBytes, compareBytes]
      by_cases hlt : a < b
      · rw [if_pos hlt, if_neg (UInt8.lt_asymm hlt), if_pos hlt]
        rfl
      · by_cases hgt : b < a
        · rw [if_neg hlt, if_pos hgt, if_pos hgt]
          rfl
        · rw [if_neg hlt, if_neg hgt, if_neg hgt, if_neg hlt, compareBytes_swap]

/-! ## Texts -/

/-- The bytes of the one text come before those of the other: at the first
place where they differ the byte is the lesser one, or the bytes end. -/
def Precedes (s t : String) : Prop := List.Lex (· < ·) (bytes s) (bytes t)

theorem order_lt_iff {s t : String} : order s t = .lt ↔ Precedes s t := compareBytes_lt_iff

theorem order_gt_iff {s t : String} : order s t = .gt ↔ Precedes t s := by
  rw [← order_lt_iff, order, order, ← compareBytes_swap (bytes s), Ordering.swap_eq_lt]

theorem order_isLE_iff {s t : String} : (order s t).isLE = true ↔ ¬ Precedes t s := by
  rw [← order_gt_iff]
  cases order s t <;> decide

theorem Precedes.irrefl (s : String) : ¬ Precedes s s := by
  rw [← order_lt_iff, order_eq_iff.mpr rfl]
  decide

theorem Precedes.trans {s t u : String} (hst : Precedes s t) (htu : Precedes t u) :
    Precedes s u := List.lt_trans hst htu

theorem Precedes.trichotomy (s t : String) : Precedes s t ∨ s = t ∨ Precedes t s := by
  rw [← order_lt_iff, ← order_gt_iff, ← order_eq_iff]
  cases order s t <;> simp

theorem order_isLE_trans {s t u : String} (hst : (order s t).isLE = true)
    (htu : (order t u).isLE = true) : (order s u).isLE = true := by
  rw [order_isLE_iff] at hst htu ⊢
  intro hus
  rcases Precedes.trichotomy s t with hlt | rfl | hgt
  · exact htu (hus.trans hlt)
  · exact htu hus
  · exact hst hgt

theorem order_isLE_total (s t : String) :
    ((order s t).isLE || (order t s).isLE) = true := by
  rw [Bool.or_eq_true, order_isLE_iff, order_isLE_iff]
  by_cases hst : Precedes s t
  · exact .inl fun hts => Precedes.irrefl s (hst.trans hts)
  · exact .inr hst

end AdvisoryGate.Text
