import AdvisoryGate.Invocation
import Mathlib.Data.List.OfFn
import Mathlib.Data.Set.Function

/-!
# Ignore lists and their flags

An ignore list becomes arguments, one pair of flag and id for each entry,
and nothing is lost on the way: read two by two, the arguments give the list
back (`ofArguments_arguments`). It is the place alone that tells a flag from
an id, so ids may repeat, be empty or look like the flag. Nor is anything
left over on the other side: an even number of texts with the flag at every
even place are the arguments of some list (`arguments_ofArguments_iff`).

Induction is by pairs, as `pairs` reads them; that the number is even says
that no text is left at the end.
-/

namespace AdvisoryGate

namespace IgnoreList

/-- The texts two by two. A last one without a partner is left out. -/
def pairs : List String → List (String × String)
  | [] => []
  | [_] => []
  | a :: b :: rest => (a, b) :: pairs rest

/-- The list whose ids are the second texts of the pairs. -/
def ofArguments (args : List String) : IgnoreList := ⟨(pairs args).map fun p => .literal p.2⟩

/-- An even number of texts, with the flag at every even place. -/
structure Flagged (args : List String) : Prop where
  even : args.length % 2 = 0
  flags : ∀ i, 2 * i < args.length → args[2 * i]? = some "--ignore"

/-- The list in the order that a permutation of its places makes. -/
def permuted (l : IgnoreList) (σ : Equiv.Perm (Fin l.ids.length)) : IgnoreList :=
  ⟨List.ofFn fun i => l.ids[σ i]⟩

/-! ## Pairs -/

theorem arguments_cons (id : AdvisoryId) (ids : List AdvisoryId) :
    arguments ⟨id :: ids⟩ = "--ignore" :: id.text :: arguments ⟨ids⟩ := rfl

theorem arguments_append (l m : IgnoreList) :
    arguments ⟨l.ids ++ m.ids⟩ = l.arguments ++ m.arguments := List.flatMap_append

theorem pairs_arguments (l : IgnoreList) :
    pairs l.arguments = l.ids.map fun id => ("--ignore", id.text) := by
  obtain ⟨ids⟩ := l
  induction ids with
  | nil => rfl
  | cons id ids ih => rw [arguments_cons, pairs, ih, List.map_cons]

theorem ofArguments_arguments (l : IgnoreList) : ofArguments l.arguments = l := by
  rw [ofArguments, pairs_arguments, List.map_map]
  exact congrArg mk (List.map_id _)

theorem flagged_cons_cons_iff {a b : String} {rest : List String} :
    Flagged (a :: b :: rest) ↔ a = "--ignore" ∧ Flagged rest := by
  constructor
  · rintro ⟨heven, hflags⟩
    rw [List.length_cons, List.length_cons] at heven hflags
    refine ⟨Option.some.inj (hflags 0 (by omega)), by omega, fun i hi => ?_⟩
    exact hflags (i + 1) (by omega)
  · rintro ⟨rfl, heven, hflags⟩
    refine ⟨by simp only [List.length_cons]; omega, fun i hi => ?_⟩
    rw [List.length_cons, List.length_cons] at hi
    cases i with
    | zero => rfl
    | succ i => exact hflags i (by omega)

theorem flagged_arguments (l : IgnoreList) : Flagged l.arguments := by
  obtain ⟨ids⟩ := l
  induction ids with
  | nil => exact ⟨rfl, fun i hi => absurd hi (Nat.not_lt_zero _)⟩
  | cons id ids ih => exact flagged_cons_cons_iff.mpr ⟨rfl, ih⟩

theorem arguments_ofArguments {args : List String} (h : Flagged args) :
    (ofArguments args).arguments = args := by
  induction args using pairs.induct with
  | case1 => rfl
  | case2 a =>
      have heven := h.even
      cases heven
  | case3 a b rest ih =>
      obtain ⟨rfl, hrest⟩ := flagged_cons_cons_iff.mp h
      have hcons := ih hrest
      rw [ofArguments] at hcons ⊢
      rw [pairs, List.map_cons, arguments_cons, hcons]
      rfl

theorem arguments_ofArguments_iff {args : List String} :
    (ofArguments args).arguments = args ↔ Flagged args :=
  ⟨fun h => h ▸ flagged_arguments _, arguments_ofArguments⟩

theorem arguments_injective : Function.Injective arguments :=
  Function.LeftInverse.injective ofArguments_arguments

theorem pairs_permuted (l : IgnoreList) (σ : Equiv.Perm (Fin l.ids.length))
    (i : Fin l.ids.length) :
    (pairs (l.permuted σ).arguments)[i.val]? = (pairs l.arguments)[(σ i).val]? := by
  rw [pairs_arguments, pairs_arguments, List.getElem?_map, List.getElem?_map, permuted,
    List.getElem?_ofFn, dif_pos i.isLt, List.getElem?_eq_getElem (σ i).isLt]
  rfl

theorem length_permuted (l : IgnoreList) (σ : Equiv.Perm (Fin l.ids.length)) :
    (l.permuted σ).length = l.length := List.length_ofFn

/-! ## The arguments say the list -/

theorem bijOn_arguments : Set.BijOn arguments Set.univ {args | Flagged args} :=
  ⟨fun l _ => flagged_arguments l, arguments_injective.injOn,
    fun _ h => ⟨_, Set.mem_univ _, arguments_ofArguments h⟩⟩

/-- **The arguments say the list, and nothing else.** Lists and the flagged
texts of even number belong to each other one to one: reading the arguments
of a list two by two gives the list back, and a text is written as it was
read exactly if it is flagged. One list behind another is one row of
arguments behind the other, and another order of the list is the same other
order of the pairs. The arguments of an invocation are its leading ones and
these; so with the same leading ones two invocations have the same arguments
exactly if their lists are the same. -/
theorem arguments_say_the_list :
    Set.BijOn arguments Set.univ {args | Flagged args}
      ∧ (∀ l : IgnoreList, ofArguments l.arguments = l)
      ∧ (∀ args, (ofArguments args).arguments = args ↔ Flagged args)
      ∧ (∀ l m : IgnoreList, arguments ⟨l.ids ++ m.ids⟩ = l.arguments ++ m.arguments)
      ∧ (∀ (l : IgnoreList) (σ : Equiv.Perm (Fin l.ids.length)),
          (pairs (l.permuted σ).arguments).length = (pairs l.arguments).length
          ∧ ∀ i, (pairs (l.permuted σ).arguments)[i.val]? = (pairs l.arguments)[(σ i).val]?)
      ∧ ∀ program program' leading (l l' : IgnoreList),
          (Invocation.mk program leading l).args = leading ++ l.arguments
          ∧ ((Invocation.mk program leading l).args = (Invocation.mk program' leading l').args
              ↔ l = l') := by
  refine ⟨bijOn_arguments, ofArguments_arguments, fun _ => arguments_ofArguments_iff,
    arguments_append, fun l σ => ⟨?_, pairs_permuted l σ⟩,
    fun program program' leading l l' => ⟨rfl, ?_⟩⟩
  · rw [pairs_arguments, pairs_arguments, List.length_map, List.length_map]
    exact length_permuted l σ
  · rw [Invocation.args, Invocation.args, List.append_cancel_left_eq]
    exact arguments_injective.eq_iff

end IgnoreList

end AdvisoryGate
