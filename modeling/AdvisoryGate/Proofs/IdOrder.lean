import AdvisoryGate.Advisory
import AdvisoryGate.Proofs.TextOrder

/-!
# Bytes, code points and the order of ids

Ids are ordered by the bytes of their texts in UTF-8. That this is the order
of their code points hangs on two things: of two characters with as many
bytes each, the bits that differ first decide in either order, and a
character with more bytes has a greater byte in front. `Coded` keeps the four
lengths apart, so that both are said once for all of them
(`compareBytes_encoded`, `Coded.leading_lt`); `order_eq_compareLex` takes it
from characters to texts.

`order_sorts_ids` adds what a linear order is good for: a list of ids has
one sorted form, whatever order it comes in.
-/

namespace AdvisoryGate

namespace Text

/-! ## UTF-8 -/

/-- A code point as a byte that leads and `n` bytes of six bits each behind
it. What the six bits leave over is added to `lead`. -/
def encoded (lead : Nat) : Nat → Nat → List UInt8
  | 0, v => [UInt8.ofNat (v + lead)]
  | n + 1, v => encoded lead n (v / 64) ++ [UInt8.ofNat (v % 64 + 128)]

/-- What `n` bytes of six bits leave over. -/
def leftOver : Nat → Nat → Nat
  | 0, v => v
  | n + 1, v => leftOver n (v / 64)

/-- The number of bytes that follow, the mark of the byte that leads, and
the code points that are written with these. -/
inductive Coded : Nat → Nat → Nat → Prop
  | one {v : Nat} : v ≤ 0x7f → Coded 0 0 v
  | two {v : Nat} : 0x7f < v → v ≤ 0x7ff → Coded 1 0xc0 v
  | three {v : Nat} : 0x7ff < v → v ≤ 0xffff → Coded 2 0xe0 v
  | four {v : Nat} : 0xffff < v → v ≤ 0x10ffff → Coded 3 0xf0 v

theorem toNat_le (c : Char) : c.toNat ≤ 0x10ffff := by
  rcases c.valid with h | ⟨-, h⟩
  · exact Nat.le_trans (Nat.le_of_lt h) (by decide)
  · exact Nat.le_of_lt_succ h

theorem exists_coded (c : Char) : ∃ n lead, Coded n lead c.toNat
    ∧ String.utf8EncodeChar c = encoded lead n c.toNat := by
  have hle := toNat_le c
  have hval : c.val.toNat = c.toNat := rfl
  simp only [String.utf8EncodeChar, hval]
  generalize c.toNat = v at hle
  split
  · rename_i h
    exact ⟨0, 0, .one h, rfl⟩
  · split
    · refine ⟨1, 0xc0, .two (by omega) (by omega), ?_⟩
      rw [show v / 64 % 32 = v / 64 by omega]
      rfl
    · split
      · refine ⟨2, 0xe0, .three (by omega) (by omega), ?_⟩
        rw [show v / 4096 % 16 = v / 64 / 64 by omega]
        rfl
      · refine ⟨3, 0xf0, .four (by omega) hle, ?_⟩
        rw [show v / 262144 % 8 = v / 64 / 64 / 64 by omega,
          show v / 4096 = v / 64 / 64 by omega]
        rfl

section Encoded

variable {x y : UInt8} {lead n v w : Nat} {s t : List UInt8}

theorem compareBytes_cons_of_lt (h : x < y) : compareBytes (x :: s) (y :: t) = .lt := by
  rw [compareBytes, if_pos h]

theorem compareBytes_append_left (bs : List UInt8) :
    compareBytes (bs ++ s) (bs ++ t) = compareBytes s t := by
  induction bs with
  | nil => rfl
  | cons b bs ih =>
      rw [List.cons_append, List.cons_append, compareBytes, if_neg (UInt8.lt_irrefl b),
        if_neg (UInt8.lt_irrefl b), ih]

theorem ofNat_lt (h : v < w) (hw : w < 256) : UInt8.ofNat v < UInt8.ofNat w := by
  rw [UInt8.lt_iff_toNat_lt, UInt8.toNat_ofNat', UInt8.toNat_ofNat']
  omega

/-- With the same number of bytes the six bits that differ first decide. -/
theorem compareBytes_encoded (h : v < w) (hw : leftOver n w + lead < 256) :
    compareBytes (encoded lead n v ++ s) (encoded lead n w ++ t) = .lt := by
  induction n generalizing v w s t with
  | zero => exact compareBytes_cons_of_lt (ofNat_lt (Nat.add_lt_add_right h lead) hw)
  | succ n ih =>
      rw [encoded, encoded, List.append_assoc, List.append_assoc]
      rcases Nat.lt_or_ge (v / 64) (w / 64) with hlt | hge
      · exact ih hlt hw
      · have heq : v / 64 = w / 64 := by omega
        rw [heq, compareBytes_append_left]
        exact compareBytes_cons_of_lt (ofNat_lt (by omega) (by omega))

theorem exists_encoded_eq_cons (lead n v : Nat) :
    ∃ bs, encoded lead n v = UInt8.ofNat (leftOver n v + lead) :: bs := by
  induction n generalizing v with
  | zero => exact ⟨[], rfl⟩
  | succ n ih =>
      obtain ⟨bs, hbs⟩ := ih (v / 64)
      exact ⟨bs ++ [UInt8.ofNat (v % 64 + 128)], by rw [encoded, hbs]; rfl⟩

/-- The greater code point has more bytes behind a greater one, or as many. -/
theorem Coded.leading_lt {m lead' : Nat} (hv : Coded n lead v) (hw : Coded m lead' w)
    (h : v < w) : n = m ∧ lead = lead' ∨ leftOver n v + lead < leftOver m w + lead' := by
  cases hv <;> cases hw <;> simp [leftOver] <;> omega

theorem Coded.leading_lt_256 (hw : Coded n lead w) : leftOver n w + lead < 256 := by
  cases hw <;> simp only [leftOver] <;> omega

/-- The lesser code point has the lesser bytes, whatever follows. -/
theorem compareBytes_utf8EncodeChar {c d : Char} (h : c.toNat < d.toNat) :
    compareBytes (String.utf8EncodeChar c ++ s) (String.utf8EncodeChar d ++ t) = .lt := by
  obtain ⟨n, lead, hc, hcbytes⟩ := exists_coded c
  obtain ⟨m, lead', hd, hdbytes⟩ := exists_coded d
  rw [hcbytes, hdbytes]
  rcases hc.leading_lt hd h with ⟨rfl, rfl⟩ | hlt
  · exact compareBytes_encoded h hd.leading_lt_256
  · obtain ⟨bs, hbs⟩ := exists_encoded_eq_cons lead n c.toNat
    obtain ⟨bs', hbs'⟩ := exists_encoded_eq_cons lead' m d.toNat
    rw [hbs, hbs']
    exact compareBytes_cons_of_lt (ofNat_lt hlt hd.leading_lt_256)

end Encoded

/-! ## Code points -/

/-- The order of characters by code point. -/
def compareCodePoints (c d : Char) : Ordering := compare c.toNat d.toNat

theorem compareBytes_eq_compareLex : ∀ cs ds : List Char,
    compareBytes (cs.flatMap String.utf8EncodeChar) (ds.flatMap String.utf8EncodeChar)
      = List.compareLex compareCodePoints cs ds
  | [], [] => rfl
  | [], d :: ds => by
      obtain ⟨n, lead, -, hd⟩ := exists_coded d
      obtain ⟨bs, hbs⟩ := exists_encoded_eq_cons lead n d.toNat
      rw [List.flatMap_cons, hd, hbs]
      rfl
  | c :: cs, [] => by
      obtain ⟨n, lead, -, hc⟩ := exists_coded c
      obtain ⟨bs, hbs⟩ := exists_encoded_eq_cons lead n c.toNat
      rw [List.flatMap_cons, hc, hbs]
      rfl
  | c :: cs, d :: ds => by
      rw [List.flatMap_cons, List.flatMap_cons, List.compareLex_cons_cons]
      rcases Nat.lt_trichotomy c.toNat d.toNat with hlt | heq | hgt
      · rw [compareBytes_utf8EncodeChar hlt, compareCodePoints, Nat.compare_eq_lt.mpr hlt]
        rfl
      · rw [compareCodePoints, Nat.compare_eq_eq.mpr heq, Char.toNat_inj.mp heq,
          compareBytes_append_left, compareBytes_eq_compareLex]
        rfl
      · rw [← compareBytes_swap, compareBytes_utf8EncodeChar hgt, compareCodePoints,
          Nat.compare_eq_gt.mpr hgt]
        rfl

theorem bytes_eq_toUTF8 (s : String) : bytes s = s.toUTF8.data.toList := by
  rw [String.toUTF8_eq_toByteArray, ← String.utf8Encode_toList, List.utf8Encode,
    List.data_toByteArray]
  rfl

theorem order_eq_compareLex (s t : String) :
    order s t = List.compareLex compareCodePoints s.toList t.toList :=
  compareBytes_eq_compareLex s.toList t.toList

end Text

/-! ## Ids -/

namespace AdvisoryId

theorem order_swap (a b : AdvisoryId) : (order a b).swap = order b a :=
  Text.compareBytes_swap _ _

theorem order_eq_iff {a b : AdvisoryId} : order a b = .eq ↔ a = b := by
  rw [order, Text.order_eq_iff, AdvisoryId.mk.injEq]

theorem eq_literal_of_ofText? {raw : String} {id : AdvisoryId} (h : ofText? raw = .ok id) :
    id = literal (Text.trim raw) := by
  rw [ofText?] at h
  split at h
  · cases h
  · exact (Except.ok.inj h).symm

theorem eq_of_isLE {a b : AdvisoryId} (hab : (order a b).isLE = true)
    (hba : (order b a).isLE = true) : a = b := by
  rw [← order_swap] at hba
  cases h : order a b with
  | eq => exact order_eq_iff.mp h
  | lt =>
      rw [h] at hba
      cases hba
  | gt =>
      rw [h] at hab
      cases hab

theorem perm_sort (ids : List AdvisoryId) : (sort ids).Perm ids := List.mergeSort_perm _ _

theorem isLE_trans (a b c : AdvisoryId) (hab : (order a b).isLE = true)
    (hbc : (order b c).isLE = true) : (order a c).isLE = true :=
  Text.order_isLE_trans hab hbc

theorem isLE_total (a b : AdvisoryId) : ((order a b).isLE || (order b a).isLE) = true :=
  Text.order_isLE_total a.text b.text

theorem pairwise_sort (ids : List AdvisoryId) :
    (sort ids).Pairwise fun a b => (order a b).isLE = true :=
  List.pairwise_mergeSort isLE_trans isLE_total ids

theorem sort_eq_sort_iff {ids ids' : List AdvisoryId} : sort ids = sort ids' ↔ ids.Perm ids' := by
  constructor
  · intro h
    have hperm := (perm_sort ids).symm
    rw [h] at hperm
    exact hperm.trans (perm_sort ids')
  · intro h
    have hperm := ((perm_sort ids).trans h).trans (perm_sort ids').symm
    exact hperm.eq_of_pairwise (fun _ _ _ _ => eq_of_isLE) (pairwise_sort ids) (pairwise_sort ids')

/-- **The order of ids.** One id comes before another if its bytes in UTF-8
come lexicographically before those of the other, and this is the order of
their code points. Of two ids one comes before the other unless they are
equal, and the order is transitive. How an id was made has no say. A sorted
list holds the same ids as often and ascending, and it is the same for two
lists exactly if these are permutations of each other. -/
theorem order_sorts_ids :
    (∀ a b : AdvisoryId, (order a b = .eq ↔ a = b)
        ∧ (order a b).swap = order b a
        ∧ (order a b = .lt ↔
            List.Lex (· < ·) a.text.toUTF8.data.toList b.text.toUTF8.data.toList)
        ∧ order a b = List.compareLex Text.compareCodePoints a.text.toList b.text.toList)
      ∧ (∀ a b c : AdvisoryId, (order a b).isLE = true → (order b c).isLE = true →
          (order a c).isLE = true)
      ∧ (∀ raw id, ofText? raw = .ok id → order id (literal (Text.trim raw)) = .eq
          ∧ ∀ other, order id other = order (literal (Text.trim raw)) other)
      ∧ ∀ ids ids' : List AdvisoryId, (sort ids).Perm ids
          ∧ (sort ids).Pairwise (fun a b => (order a b).isLE = true)
          ∧ (sort ids = sort ids' ↔ ids.Perm ids') := by
  refine ⟨fun a b => ⟨order_eq_iff, order_swap a b, ?_, Text.order_eq_compareLex a.text b.text⟩,
    isLE_trans, fun raw id h => ?_,
    fun ids ids' => ⟨perm_sort ids, pairwise_sort ids, sort_eq_sort_iff⟩⟩
  · rw [← Text.bytes_eq_toUTF8, ← Text.bytes_eq_toUTF8]
    exact Text.order_lt_iff
  · obtain rfl := eq_literal_of_ofText? h
    exact ⟨order_eq_iff.mpr rfl, fun _ => rfl⟩

/-- The surrogates of UTF-16 would put `𐀀` before `U+FFFD`. -/
theorem order_sorts_ids_beyond_surrogates :
    let e : AdvisoryId := ⟨"é"⟩
    let mark : AdvisoryId := ⟨"é\ufffd"⟩
    let beyond : AdvisoryId := ⟨"é𐀀"⟩
    (order e mark).isLE = true ∧ (order mark beyond).isLE = true ∧ (order e beyond).isLE = true
      ∧ ofText? "\u3000é\n" = .ok e ∧ order e (literal "é") = .eq := by
  intro e mark beyond
  have hfirst : (order e mark).isLE = true := by decide +kernel
  have hsecond : (order mark beyond).isLE = true := by decide +kernel
  have hread : ofText? "\u3000é\n" = .ok e := by rfl
  obtain ⟨-, htrans, hmade, -⟩ := order_sorts_ids
  exact ⟨hfirst, hsecond, htrans e mark beyond hfirst hsecond, hread, (hmade _ e hread).1⟩

end AdvisoryId

end AdvisoryGate
