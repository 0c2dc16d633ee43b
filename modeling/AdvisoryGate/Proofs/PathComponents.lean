import AdvisoryGate.Path
import AdvisoryGate.Proofs.Lemmas
import Mathlib.Data.List.Basic
import Mathlib.Data.List.TakeWhile

/-!
# The components of a path

A path can be spelled in many ways: slashes can be repeated, or follow the
last name, and so can lone dots. Its `components` are what all spellings
have in common, together with whether it is absolute (`Same`).

The functions on paths work from the end, on the characters. What they do
in terms of components is simpler: the name is the last one and the parent
has the others (`components_cases`), a join puts one more behind them
(`components_join`), and so every spelling of a path has the same name, and
parents and joins that are spellings of one path. Going up, a path gets
shorter until no name is left (`parentInduction`).
-/

namespace AdvisoryGate.Path

/-- Something stands between the slashes, and not a lone dot. -/
def tells (part : List Char) : Bool := part ≠ [] && part ≠ ['.']

/-- The parts that tell something, and a dot in front of all others. -/
def componentsOfChars (cs : List Char) : List (List Char) :=
  match partsOfChars cs with
  | [] => []
  | part :: parts => (if part = [] then [] else [part]) ++ parts.filter tells

def components (path : String) : List String := (componentsOfChars path.toList).map String.ofList

/-- The paths are two spellings of one. -/
structure Same (path path' : String) : Prop where
  absolute : isAbsolute path = isAbsolute path'
  components : components path = components path'

/-- The path ends with its name, or is a root. -/
def Bare (path : String) : Prop := bareReversed path.toList.reverse = path.toList.reverse

/-- A text of slashes only. -/
def slashes (k : Nat) : String := String.ofList (List.replicate k '/')

/-- The text can stand as a component anywhere in a path. -/
structure IsName (n : String) : Prop where
  noSlash : '/' ∉ n.toList
  tells : tells n.toList = true

theorem Same.refl (path : String) : Same path path := ⟨rfl, rfl⟩

theorem Same.symm {path path' : String} (h : Same path path') : Same path' path :=
  ⟨h.absolute.symm, h.components.symm⟩

theorem Same.trans {path path' path'' : String} (h : Same path path') (h' : Same path' path'') :
    Same path path'' :=
  ⟨h.absolute.trans h'.absolute, h.components.trans h'.components⟩

/-! ## Parts -/

theorem partsOfChars_ne_nil (cs : List Char) : partsOfChars cs ≠ [] := by
  cases cs with
  | nil => exact List.cons_ne_nil _ _
  | cons c cs =>
      rw [partsOfChars]
      split
      · exact List.cons_ne_nil _ _
      · split <;> exact List.cons_ne_nil _ _

theorem partsOfChars_append (as bs : List Char) :
    partsOfChars (as ++ '/' :: bs) = partsOfChars as ++ partsOfChars bs := by
  induction as with
  | nil => simp [partsOfChars]
  | cons c as ih =>
      rw [List.cons_append, partsOfChars, partsOfChars, ih]
      split
      · rfl
      · obtain ⟨part, parts, hparts⟩ := List.exists_cons_of_ne_nil (partsOfChars_ne_nil as)
        rw [hparts]
        rfl

theorem parts_below (base rest : String) :
    parts (base ++ "/" ++ rest) = parts base ++ parts rest := by
  have hchars : (base ++ "/" ++ rest).toList = base.toList ++ '/' :: rest.toList := by
    simp [String.toList_append]
  rw [parts, hchars, partsOfChars_append, List.map_append, parts, parts]

theorem isAbsolute_below {base : String} (h : base ≠ "") (rest : String) :
    isAbsolute (base ++ "/" ++ rest) = isAbsolute base := by
  have hne : base.toList ≠ [] := fun hnil => h (String.toList_eq_nil_iff.mp hnil)
  obtain ⟨c, cs, hbase⟩ := List.exists_cons_of_ne_nil hne
  simp [isAbsolute, String.toList_append, hbase]

theorem exists_parts (path : String) : ∃ part rest, parts path = part :: rest := by
  refine List.exists_cons_of_ne_nil fun hnil => partsOfChars_ne_nil path.toList ?_
  exact List.map_eq_nil_iff.mp hnil

/-! ## From the front -/

section Chars

variable {cs : List Char}

theorem partsOfChars_of_noSlash (h : '/' ∉ cs) : partsOfChars cs = [cs] := by
  induction cs with
  | nil => rfl
  | cons c cs ih =>
      simp only [List.mem_cons, not_or] at h
      rw [partsOfChars, if_neg (Ne.symm h.1), ih h.2]

theorem componentsOfChars_append (as bs : List Char) :
    componentsOfChars (as ++ '/' :: bs)
      = componentsOfChars as ++ (partsOfChars bs).filter tells := by
  obtain ⟨part, parts, hparts⟩ := List.exists_cons_of_ne_nil (partsOfChars_ne_nil as)
  simp [componentsOfChars, partsOfChars_append, hparts]

theorem componentsOfChars_slash (as : List Char) :
    componentsOfChars (as ++ ['/']) = componentsOfChars as := by
  simp [componentsOfChars_append, partsOfChars, tells]

theorem componentsOfChars_of_noSlash (h : '/' ∉ cs) :
    componentsOfChars cs = if cs = [] then [] else [cs] := by
  simp [componentsOfChars, partsOfChars_of_noSlash h]

/-- A dot at the front is no part that tells something. -/
theorem filter_componentsOfChars (cs : List Char) :
    (componentsOfChars cs).filter tells = (partsOfChars cs).filter tells := by
  rw [componentsOfChars]
  split
  · rename_i h
    rw [h]
  · rename_i part parts h
    rw [h]
    have hempty : tells [] = false := rfl
    by_cases hpart : part = []
    · simp [hpart, hempty]
    · simp [hpart, List.filter_cons]

/-! ## From the end -/

theorem componentsOfChars_bareReversed (cs : List Char) :
    componentsOfChars (bareReversed cs).reverse = componentsOfChars cs.reverse := by
  induction cs with
  | nil => rfl
  | cons c cs ih =>
      rw [bareReversed]
      split
      · rename_i hnil
        rw [hnil]
      · split
        · rename_i hslash
          rw [ih, hslash, List.reverse_cons, componentsOfChars_slash]
        · split
          · rename_i hdot
            obtain ⟨r, rfl⟩ := List.head?_eq_some_iff.mp hdot.2
            rw [ih, hdot.1]
            simp [componentsOfChars_append, partsOfChars, tells]
          · rfl

/-- A path begins as before when something idle is taken off its end. -/
theorem getLast?_bareReversed (cs : List Char) : (bareReversed cs).getLast? = cs.getLast? := by
  induction cs with
  | nil => rfl
  | cons c cs ih =>
      rw [bareReversed]
      split
      · rename_i hnil
        rw [hnil]
      · rename_i hne
        have hlast : (c :: cs).getLast? = cs.getLast? := by
          rw [List.getLast?_cons, List.getLast?_eq_some_getLast hne]
          rfl
        split
        · rw [ih, hlast]
        · split
          · rw [ih, hlast]
          · rfl

theorem bareReversed_slash {r : List Char} (h : bareReversed cs = '/' :: r) : r = [] := by
  induction cs with
  | nil => cases h
  | cons c cs ih =>
      rw [bareReversed] at h
      split at h
      · exact (List.cons.inj h).2.symm
      · split at h
        · exact ih h
        · split at h
          · exact ih h
          · exact absurd (List.cons.inj h).1 ‹¬ c = '/'›

theorem bareReversed_ne_dot_slash {r : List Char} : bareReversed cs ≠ '.' :: '/' :: r := by
  induction cs with
  | nil => simp [bareReversed]
  | cons c cs ih =>
      rw [bareReversed]
      split
      · simp
      · split
        · exact ih
        · split
          · exact ih
          · rename_i hdot
            rintro heq
            obtain ⟨rfl, rfl⟩ := List.cons.inj heq
            exact hdot ⟨rfl, rfl⟩

theorem bareReversed_bareReversed (cs : List Char) :
    bareReversed (bareReversed cs) = bareReversed cs := by
  induction cs with
  | nil => rfl
  | cons c cs ih =>
      by_cases hnil : cs = []
      · rw [bareReversed, if_pos hnil]
        rfl
      · by_cases hslash : c = '/'
        · rw [bareReversed, if_neg hnil, if_pos hslash, ih]
        · by_cases hdot : c = '.' ∧ cs.head? = some '/'
          · rw [bareReversed, if_neg hnil, if_neg hslash, if_pos hdot, ih]
          · have hself : bareReversed (c :: cs) = c :: cs := by
              rw [bareReversed, if_neg hnil, if_neg hslash, if_neg hdot]
            rw [hself, hself]

theorem isSuffix_bareReversed (cs : List Char) : bareReversed cs <:+ cs := by
  induction cs with
  | nil => exact List.suffix_rfl
  | cons c cs ih =>
      rw [bareReversed]
      split
      · rename_i hnil
        simp [hnil]
      · split
        · exact ih.trans (List.suffix_cons c cs)
        · split
          · exact ih.trans (List.suffix_cons c cs)
          · exact List.suffix_rfl

theorem isSuffix_parentReversed (cs : List Char) : parentReversed cs <:+ cs :=
  (isSuffix_bareReversed _).trans ((List.dropWhile_suffix _).trans (isSuffix_bareReversed cs))

theorem slash_not_mem_nameReversed (cs : List Char) : '/' ∉ nameReversed cs := by
  intro h
  simpa using List.mem_takeWhile_imp h

/-- The name, and what stands in front of it, down to the slash. -/
theorem exists_front (cs : List Char) : ∃ front,
    bareReversed cs = nameReversed cs ++ front ∧ parentReversed cs = bareReversed front
      ∧ (front = [] ∨ ∃ r, front = '/' :: r) := by
  refine ⟨(bareReversed cs).dropWhile (· ≠ '/'), List.takeWhile_append_dropWhile.symm, rfl, ?_⟩
  have hhead := List.head?_dropWhile_not (· ≠ '/') (bareReversed cs)
  generalize (bareReversed cs).dropWhile (· ≠ '/') = front at hhead ⊢
  cases front with
  | nil => exact .inl rfl
  | cons c r => exact .inr ⟨r, by simpa using hhead⟩

theorem componentsOfChars_of_nameReversed (hname : nameReversed cs ≠ []) :
    componentsOfChars cs.reverse
      = componentsOfChars (parentReversed cs).reverse ++ [(nameReversed cs).reverse] := by
  obtain ⟨front, hcs, hparent, hfront⟩ := exists_front cs
  have hnoSlash : '/' ∉ (nameReversed cs).reverse := by
    simpa using slash_not_mem_nameReversed cs
  rw [hparent, componentsOfChars_bareReversed, ← componentsOfChars_bareReversed cs, hcs]
  rcases hfront with rfl | ⟨r, rfl⟩
  · rw [List.append_nil, componentsOfChars_of_noSlash hnoSlash]
    simp [hname, componentsOfChars, partsOfChars]
  · -- A lone dot behind a slash would have been dropped.
    have hdot : nameReversed cs ≠ ['.'] := by
      intro hdot
      rw [hdot] at hcs
      exact bareReversed_ne_dot_slash hcs
    have htells : tells (nameReversed cs).reverse = true := by
      simp [tells, hname, List.reverse_eq_cons_iff, hdot]
    rw [List.reverse_append, List.reverse_cons, List.append_assoc, List.singleton_append,
      componentsOfChars_append, componentsOfChars_slash, partsOfChars_of_noSlash hnoSlash,
      List.filter_cons_of_pos htells, List.filter_nil]

theorem bareReversed_of_no_name (hname : nameReversed cs = []) :
    bareReversed cs = [] ∨ bareReversed cs = ['/'] := by
  obtain ⟨front, hcs, -, hfront⟩ := exists_front cs
  rw [hname, List.nil_append] at hcs
  rcases hfront with rfl | ⟨r, rfl⟩
  · exact .inl hcs
  · obtain rfl := bareReversed_slash hcs
    exact .inr hcs

theorem getLast?_parentReversed (cs : List Char) :
    (parentReversed cs).getLast? = some '/' ↔ cs.getLast? = some '/' := by
  obtain ⟨front, hcs, hparent, hfront⟩ := exists_front cs
  rw [hparent, getLast?_bareReversed, ← getLast?_bareReversed cs, hcs]
  rcases hfront with rfl | ⟨r, rfl⟩
  · refine ⟨nofun, fun h => absurd (List.mem_of_getLast? h) ?_⟩
    rw [List.append_nil]
    exact slash_not_mem_nameReversed cs
  · rw [List.getLast?_append_of_ne_nil _ (List.cons_ne_nil _ _)]

/-- Of a path that ends with its name, the parts but the last are those of
the parent, up to idle ones. -/
theorem exists_parts_of_bare (h : bareReversed cs = cs) : ∃ parts,
    partsOfChars cs.reverse = parts ++ [(nameReversed cs).reverse]
      ∧ parts.filter tells = (componentsOfChars (parentReversed cs).reverse).filter tells := by
  obtain ⟨front, hcs, hparent, hfront⟩ := exists_front cs
  have hnoSlash : '/' ∉ (nameReversed cs).reverse := by
    simpa using slash_not_mem_nameReversed cs
  rw [hparent, componentsOfChars_bareReversed]
  rw [h] at hcs
  rcases hfront with rfl | ⟨r, rfl⟩
  · refine ⟨[], ?_, rfl⟩
    conv_lhs => rw [hcs, List.append_nil, partsOfChars_of_noSlash hnoSlash]
    rfl
  · refine ⟨partsOfChars r.reverse, ?_, ?_⟩
    · conv_lhs => rw [hcs, List.reverse_append, List.reverse_cons, List.append_assoc,
        List.singleton_append, partsOfChars_append, partsOfChars_of_noSlash hnoSlash]
    · rw [List.reverse_cons, componentsOfChars_slash, filter_componentsOfChars]

/-- A name at the end, given in reverse, leaves nothing to drop. -/
theorem bareReversed_append {m : List Char} (htells : tells m = true) (hnoSlash : '/' ∉ m)
    (r : List Char) : bareReversed (m ++ r) = m ++ r := by
  simp only [tells, Bool.and_eq_true, decide_eq_true_eq] at htells
  obtain ⟨c, m, rfl⟩ := List.exists_cons_of_ne_nil htells.1
  simp only [List.mem_cons, not_or] at hnoSlash
  rw [List.cons_append, bareReversed]
  split
  · rename_i hnil
    rw [hnil]
  · rw [if_neg (Ne.symm hnoSlash.1), if_neg]
    rintro ⟨rfl, hhead⟩
    -- A dot at the end is all of the name, or the name goes on in front of it.
    cases m with
    | nil => exact htells.2 rfl
    | cons c' m =>
        simp only [List.cons_append, List.head?_cons, Option.some.injEq] at hhead
        exact hnoSlash.2 (by simp [hhead])

end Chars

/-! ## Names and parents -/

section Paths

variable {path path' n : String}

theorem name_eq_empty_iff : name path = "" ↔ nameReversed path.toList.reverse = [] := by
  simp [name, ← String.toList_inj]

theorem toList_parent (path : String) :
    (parent path).toList = (parentReversed path.toList.reverse).reverse :=
  String.toList_ofList

/-- What the name and the parent are in terms of components. -/
theorem components_cases (path : String) :
    name path = "" ∧ components path = [] ∧ components (parent path) = []
      ∨ name path ≠ "" ∧ components path = components (parent path) ++ [name path] := by
  by_cases hname : name path = ""
  · refine .inl ⟨hname, ?_⟩
    rw [name_eq_empty_iff] at hname
    have hbare := bareReversed_of_no_name hname
    have hself : componentsOfChars path.toList
        = componentsOfChars (bareReversed path.toList.reverse).reverse := by
      rw [componentsOfChars_bareReversed, List.reverse_reverse]
    rw [components, components, toList_parent, hself, parentReversed]
    rcases hbare with h | h <;> rw [h] <;> exact ⟨rfl, rfl⟩
  · refine .inr ⟨hname, ?_⟩
    have hchars := componentsOfChars_of_nameReversed (mt name_eq_empty_iff.mpr hname)
    rw [List.reverse_reverse] at hchars
    rw [components, hchars, List.map_append, components, toList_parent]
    rfl

theorem components_eq_nil_iff : components path = [] ↔ name path = "" := by
  rcases components_cases path with ⟨hname, hnil, -⟩ | ⟨hname, hcomponents⟩ <;> simp [*]

theorem components_parent (path : String) :
    components (parent path) = (components path).dropLast := by
  rcases components_cases path with ⟨-, hnil, hparent⟩ | ⟨-, hcomponents⟩
  · rw [hnil, hparent]
    rfl
  · rw [hcomponents, List.dropLast_concat]

theorem getLast?_components (path : String) :
    (components path).getLast? = if name path = "" then none else some (name path) := by
  rcases components_cases path with ⟨hname, hnil, -⟩ | ⟨hname, hcomponents⟩
  · rw [hnil, if_pos hname]
    rfl
  · rw [hcomponents, if_neg hname, List.getLast?_concat]

theorem name_eq_iff (hn : n ≠ "") : name path = n ↔ (components path).getLast? = some n := by
  rw [getLast?_components]
  split
  · rename_i hname
    simp [hname, hn.symm]
  · simp

theorem Same.name (h : Same path path') : name path = name path' := by
  have hlast := congrArg List.getLast? h.components
  rw [getLast?_components, getLast?_components] at hlast
  split at hlast <;> split at hlast <;> simp_all

theorem isAbsolute_eq (path : String) :
    isAbsolute path = decide (path.toList.reverse.getLast? = some '/') := by
  rw [isAbsolute, List.getLast?_reverse]

theorem isAbsolute_parent (path : String) : isAbsolute (parent path) = isAbsolute path := by
  rw [isAbsolute_eq, isAbsolute_eq, toList_parent, List.reverse_reverse, decide_eq_decide]
  exact getLast?_parentReversed _

theorem Same.parent (h : Same path path') : Same (parent path) (parent path') := by
  refine ⟨?_, ?_⟩
  · rw [isAbsolute_parent, isAbsolute_parent, h.absolute]
  · rw [components_parent, components_parent, h.components]

theorem bare_parent (path : String) : Bare (parent path) := by
  rw [Bare, toList_parent, List.reverse_reverse]
  exact bareReversed_bareReversed _

/-- Without a name, a path that drops nothing is a root or empty. -/
theorem Bare.eq_of_no_name (h : Bare path) (hname : name path = "") :
    path = if isAbsolute path then "/" else "" := by
  rw [Bare] at h
  rw [isAbsolute_eq, ← h, ← String.toList_inj, ← List.reverse_inj, ← h]
  rcases bareReversed_of_no_name (name_eq_empty_iff.mp hname) with hbare | hbare <;>
    rw [hbare] <;> rfl

theorem exists_append_of_parent (path : String) : ∃ rest, path = parent path ++ rest := by
  obtain ⟨t, ht⟩ := isSuffix_parentReversed path.toList.reverse
  refine ⟨String.ofList t.reverse, ?_⟩
  rw [← String.toList_inj, String.toList_append, toList_parent, String.toList_ofList,
    ← List.reverse_append, ht, List.reverse_reverse]

/-! ## Joining -/

theorem IsName.ne_empty (hn : IsName n) : n ≠ "" := by
  rintro rfl
  cases hn.tells

/-- The three ways in which a name is put behind a path. -/
theorem toList_join (base n : String) :
    base = "" ∧ (join base n).toList = n.toList
      ∨ base ≠ "" ∧ ∃ cs, components base = (componentsOfChars cs).map String.ofList
          ∧ (join base n).toList = cs ++ '/' :: n.toList
          ∧ isAbsolute (join base n) = isAbsolute base := by
  by_cases hempty : base = ""
  · exact .inl ⟨hempty, by simp [join, hempty]⟩
  have hne : base.toList ≠ [] := by simpa using hempty
  refine .inr ⟨hempty, ?_⟩
  by_cases hslash : base.toList.getLast? = some '/'
  · obtain ⟨cs, hcs⟩ := List.getLast?_eq_some_iff.mp hslash
    refine ⟨cs, ?_, ?_, ?_⟩
    · rw [components, hcs, componentsOfChars_slash]
    · simp [join, hcs]
    · simp [join, hslash, isAbsolute, List.head?_append_of_ne_nil _ hne]
  · refine ⟨base.toList, rfl, ?_, ?_⟩
    · simp [join, hempty, hslash]
    · rw [join, if_neg (by simp [hempty, hslash])]
      exact isAbsolute_below hempty n

theorem exists_append_of_join (base n : String) : ∃ rest, join base n = base ++ rest := by
  rw [join]
  split
  · exact ⟨n, rfl⟩
  · exact ⟨"/" ++ n, String.append_assoc⟩

theorem components_join (base : String) (hn : IsName n) :
    components (join base n) = components base ++ [n] := by
  have hlast : (partsOfChars n.toList).filter tells = [n.toList] := by
    rw [partsOfChars_of_noSlash hn.noSlash, List.filter_cons_of_pos hn.tells, List.filter_nil]
  rcases toList_join base n with ⟨rfl, hchars⟩ | ⟨-, cs, hbase, hchars, -⟩
  · have hne : n.toList ≠ [] := by simpa using hn.ne_empty
    rw [components, hchars, componentsOfChars_of_noSlash hn.noSlash, if_neg hne]
    simp [components, componentsOfChars, partsOfChars]
  · rw [components, hchars, componentsOfChars_append, hlast, List.map_append, ← hbase]
    simp

theorem isAbsolute_join (base : String) (hn : IsName n) :
    isAbsolute (join base n) = isAbsolute base := by
  rcases toList_join base n with ⟨rfl, hchars⟩ | ⟨-, cs, -, -, habsolute⟩
  · rw [isAbsolute, hchars]
    refine decide_eq_false fun hhead => hn.noSlash ?_
    exact List.mem_of_head? hhead
  · exact habsolute

theorem name_join (base : String) (hn : IsName n) : name (join base n) = n := by
  rw [name_eq_iff hn.ne_empty, components_join base hn, List.getLast?_concat]

theorem Same.join {base base' : String} (h : Same base base') (hn : IsName n) :
    Same (join base n) (join base' n) := by
  refine ⟨?_, ?_⟩
  · rw [isAbsolute_join base hn, isAbsolute_join base' hn, h.absolute]
  · rw [components_join base hn, components_join base' hn, h.components]

theorem parent_join (base : String) (hn : IsName n) : Same (parent (join base n)) base := by
  refine ⟨?_, ?_⟩
  · rw [isAbsolute_parent, isAbsolute_join base hn]
  · rw [components_parent, components_join base hn, List.dropLast_concat]

theorem bare_join (base : String) (hn : IsName n) : Bare (join base n) := by
  have hnoSlash : '/' ∉ n.toList.reverse := by simpa using hn.noSlash
  have htells : tells n.toList.reverse = true := by
    simpa [tells, List.reverse_eq_cons_iff] using hn.tells
  rw [Bare]
  rcases toList_join base n with ⟨-, hchars⟩ | ⟨-, cs, -, hchars, -⟩
  · rw [hchars]
    simpa using bareReversed_append htells hnoSlash []
  · rw [hchars, List.reverse_append, List.reverse_cons, List.append_assoc]
    exact bareReversed_append htells hnoSlash _

/-! ## Slashes at the end -/

theorem components_append_slashes (path : String) (k : Nat) :
    components (path ++ slashes k) = components path := by
  rw [components, String.toList_append, slashes, String.toList_ofList, components]
  congr 1
  induction k with
  | zero => rw [List.replicate_zero, List.append_nil]
  | succ k ih =>
      rw [List.replicate_succ', ← List.append_assoc, componentsOfChars_slash, ih]

theorem same_append_slashes (hpath : path ≠ "") (k : Nat) : Same (path ++ slashes k) path := by
  have hne : path.toList ≠ [] := by simpa using hpath
  refine ⟨?_, components_append_slashes path k⟩
  simp [isAbsolute, List.head?_append_of_ne_nil _ hne]

theorem join_append_slashes (path n : String) (k : Nat) :
    join (path ++ slashes (k + 1)) n = path ++ slashes (k + 1) ++ n := by
  refine if_pos (.inr ?_)
  rw [slashes, List.replicate_succ', String.toList_append, String.toList_ofList,
    ← List.append_assoc, List.getLast?_concat]

/-! ## The paths above -/

theorem length_parentReversed_lt {cs : List Char} (hname : nameReversed cs ≠ []) :
    (parentReversed cs).length < cs.length := by
  obtain ⟨front, hcs, hparent, -⟩ := exists_front cs
  have hfront := (isSuffix_bareReversed front).length_le
  have hbare := (isSuffix_bareReversed cs).length_le
  have hpos := List.length_pos_iff.mpr hname
  rw [hcs, List.length_append] at hbare
  rw [hparent]
  omega

/-- More steps than characters find no more ancestors. -/
theorem ancestorsReversed_of_le {j k : Nat} {cs : List Char} (hj : cs.length ≤ j)
    (hk : cs.length ≤ k) : ancestorsReversed j cs = ancestorsReversed k cs := by
  induction j generalizing k cs with
  | zero =>
      obtain rfl := List.length_eq_zero_iff.mp (Nat.le_zero.mp hj)
      cases k <;> rfl
  | succ j ih =>
      by_cases hname : nameReversed cs = []
      · cases k <;> simp [ancestorsReversed, hname]
      · have hparent := length_parentReversed_lt hname
        obtain ⟨k, rfl⟩ : ∃ i, k = i + 1 := ⟨k - 1, by omega⟩
        have hrest : ancestorsReversed j (parentReversed cs)
            = ancestorsReversed k (parentReversed cs) := ih (by omega) (by omega)
        rw [ancestorsReversed, ancestorsReversed, if_neg hname, if_neg hname, hrest]

theorem ancestors_of_no_name (hname : name path = "") : ancestors path = [] := by
  rw [name_eq_empty_iff] at hname
  rw [ancestors]
  cases path.length <;> simp [ancestorsReversed, hname]

theorem ancestors_of_name (hname : name path ≠ "") :
    ancestors path = path :: ancestors (parent path) := by
  rw [Ne, name_eq_empty_iff] at hname
  have hparent := length_parentReversed_lt hname
  have hlength : path.toList.reverse.length = path.length := by
    rw [List.length_reverse, String.length_toList]
  have hparentLength : (parent path).length = (parentReversed path.toList.reverse).length := by
    rw [← String.length_toList, toList_parent, List.length_reverse]
  obtain ⟨k, hk⟩ : ∃ k, path.length = k + 1 := ⟨path.length - 1, by omega⟩
  have hfuel : ancestorsReversed k (parentReversed path.toList.reverse)
      = ancestorsReversed (parent path).length (parent path).toList.reverse := by
    rw [toList_parent, List.reverse_reverse]
    exact ancestorsReversed_of_le (by omega) (by omega)
  rw [ancestors, hk, ancestorsReversed, if_neg hname, List.map_cons, hfuel, ancestors]
  simp

theorem length_parent_lt (hname : name path ≠ "") : (parent path).length < path.length := by
  have hlt := length_parentReversed_lt (mt name_eq_empty_iff.mpr hname)
  rw [← String.length_toList, ← String.length_toList, toList_parent, List.length_reverse]
  simpa using hlt

/-- Going up from a path ends where there is no name left. -/
@[elab_as_elim]
theorem parentInduction {motive : String → Prop} (top : ∀ path, name path = "" → motive path)
    (below : ∀ path, name path ≠ "" → motive (parent path) → motive path) (path : String) :
    motive path := by
  induction hlength : path.length using Nat.strong_induction_on generalizing path with
  | _ len ih =>
      by_cases hname : name path = ""
      · exact top path hname
      · exact below path hname (ih _ (hlength ▸ length_parent_lt hname) _ rfl)

end Paths

end AdvisoryGate.Path
