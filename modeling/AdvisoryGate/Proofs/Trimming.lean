import AdvisoryGate.Text.Blank
import Mathlib.Data.List.TakeWhile

/-!
# What cutting blanks leaves

`Text.trim` takes a blank beginning and a blank end off a text
(`exists_trim`), and what it leaves has no blank at either end
(`tight_trim`). A text of the latter kind is left alone (`trim_of_tight`),
so cutting a second time does nothing, and a text is blank exactly if what
is left of it is.
-/

namespace AdvisoryGate.Text

/-- The text holds no visible character. -/
def IsBlank (s : String) : Prop := ∀ c ∈ s.toList, c ∈ blanks

theorem isBlank_iff {s : String} : isBlank s = true ↔ IsBlank s := by
  simp only [isBlank, isBlankChar, List.all_eq_true, List.contains_iff_mem, IsBlank]

/-- Neither the first character nor the last one is blank. -/
structure Tight (cs : List Char) : Prop where
  head : ∀ c, cs.head? = some c → isBlankChar c = false
  last : ∀ c, cs.getLast? = some c → isBlankChar c = false

/-! ## One end -/

theorem head?_trimStart {cs : List Char} {c : Char} (h : (trimStart cs).head? = some c) :
    isBlankChar c = false := by
  have hhead := List.head?_dropWhile_not isBlankChar cs
  rw [trimStart] at h
  simpa [h] using hhead

theorem trimStart_of_head {cs : List Char} (h : ∀ c, cs.head? = some c → isBlankChar c = false) :
    trimStart cs = cs := by
  cases cs with
  | nil => rfl
  | cons c cs =>
      have hc := h c rfl
      rw [trimStart, List.dropWhile_cons, hc]
      rfl

theorem exists_trimStart (cs : List Char) :
    ∃ u, cs = u ++ trimStart cs ∧ ∀ c ∈ u, isBlankChar c = true :=
  ⟨cs.takeWhile isBlankChar, List.takeWhile_append_dropWhile.symm,
    fun _ hc => List.mem_takeWhile_imp hc⟩

theorem exists_trimEnd (cs : List Char) :
    ∃ v, cs = trimEnd cs ++ v ∧ ∀ c ∈ v, isBlankChar c = true := by
  obtain ⟨u, hu, hblank⟩ := exists_trimStart cs.reverse
  refine ⟨u.reverse, ?_, fun c hc => hblank c (List.mem_reverse.mp hc)⟩
  rw [trimEnd, ← List.reverse_append, ← hu, List.reverse_reverse]

/-! ## Both ends -/

theorem toList_trim (s : String) : (trim s).toList = trimEnd (trimStart s.toList) :=
  String.toList_ofList

theorem tight_trim (s : String) : Tight (trim s).toList := by
  rw [toList_trim]
  refine ⟨fun c hc => ?_, fun c hc => ?_⟩
  · -- Nothing is taken off the start here, so the first character stays.
    obtain ⟨v, hv, -⟩ := exists_trimEnd (trimStart s.toList)
    have hhead : (trimStart s.toList).head? = some c := by
      rw [hv, List.head?_append, hc]
      rfl
    exact head?_trimStart hhead
  · rw [trimEnd, List.getLast?_reverse] at hc
    exact head?_trimStart hc

theorem trim_of_tight {s : String} (h : Tight s.toList) : trim s = s := by
  have hstart : trimStart s.toList = s.toList := trimStart_of_head h.head
  have hend : trimStart s.toList.reverse = s.toList.reverse := by
    refine trimStart_of_head fun c hc => h.last c ?_
    rwa [List.head?_reverse] at hc
  rw [trim, hstart, trimEnd, hend, List.reverse_reverse, String.ofList_toList]

theorem trim_trim (s : String) : trim (trim s) = trim s := trim_of_tight (tight_trim s)

/-- Only blanks are cut off. -/
theorem exists_trim (s : String) : ∃ u v, s.toList = u ++ (trim s).toList ++ v
    ∧ (∀ c ∈ u, isBlankChar c = true) ∧ ∀ c ∈ v, isBlankChar c = true := by
  obtain ⟨u, hu, hublank⟩ := exists_trimStart s.toList
  obtain ⟨v, hv, hvblank⟩ := exists_trimEnd (trimStart s.toList)
  refine ⟨u, v, ?_, hublank, hvblank⟩
  rw [toList_trim, List.append_assoc, ← hv, ← hu]

theorem isBlank_trim (s : String) : isBlank (trim s) = isBlank s := by
  obtain ⟨u, v, hs, hu, hv⟩ := exists_trim s
  have hu' : u.all isBlankChar = true := List.all_eq_true.mpr hu
  have hv' : v.all isBlankChar = true := List.all_eq_true.mpr hv
  rw [isBlank, isBlank, hs, List.all_append, List.all_append, hu', hv']
  simp

end AdvisoryGate.Text
