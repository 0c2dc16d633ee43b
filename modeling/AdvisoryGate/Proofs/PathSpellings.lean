import AdvisoryGate.Proofs.DiskChanges

/-!
# Spellings of a path on a disk

The system follows a path part by part, so the spelling could matter to it:
a repeated slash asks for a directory where it stands, and a long spelling
of a short path is refused. As long as neither spelling ends in something
idle nor is too long (`Tidy`), they are `Alike`: they lead to the same place
on every disk, or fail alike (`alike_of_same`). This passes to the paths
above them (`alike_ancestors`), so whatever is read, made or written through
one of them is as if through the other.
-/

namespace AdvisoryGate

namespace Disk

open AdvisoryGate.Path

/-- On every disk the paths lead to one place, or cannot be followed for
one reason. -/
def Alike (path path' : String) : Prop := ∀ d : Disk, d.placeOf path = d.placeOf path'

/-- The system takes a path of this size. -/
def Fits (path : String) : Prop := path.utf8ByteSize ≤ maxPath

instance (path : String) : Decidable (Fits path) := inferInstanceAs (Decidable (_ ≤ _))

/-- The text ends with its name, and the system takes it. -/
structure Tidy (path : String) : Prop where
  bare : Bare path
  fits : Fits path

variable {d : Disk} {path path' : String}

/-! ## Following two spellings -/

theorem enter_of_see_error {p : List String} {e : SystemError} (h : d.see p = .error e)
    (part : String) : d.enter p part = .error e := by
  rw [enter, h]
  rfl

theorem enter_of_file {p : List String} {content : ByteArray} {executable : Bool}
    (h : d.see p = .ok (.file content executable)) (part : String) :
    d.enter p part = .error .notDirectory := by
  rw [enter, h]
  rfl

/-- In a directory that may not be searched every part is refused but an
empty one. -/
theorem enter_of_unsearchable {p : List String} {cause : SystemError}
    (h : d.see p = .ok .directory) (hsearch : d.obstacles.refusal? .search p = some cause)
    {part : String} (hne : part ≠ "") : d.enter p part = .error cause := by
  rw [enter, h]
  dsimp only [bind, Except.bind]
  rw [if_neg hne, hsearch]

/-- An idle part leads nowhere; and where it is refused, every part that is
not empty is refused alike. -/
theorem enter_idle (d : Disk) (p : List String) {part : String} (h : tells part.toList = false) :
    d.enter p part = .ok p
      ∨ ∃ e, d.enter p part = .error e ∧ ∀ part', part' ≠ "" → d.enter p part' = .error e := by
  have hidle : part = "" ∨ part = "." := by
    simp only [tells, Bool.and_eq_false_iff, decide_eq_false_iff_not, not_not] at h
    exact h.imp String.toList_eq_nil_iff.mp fun hdot => String.toList_inj.mp hdot
  cases hsee : d.see p with
  | error e =>
      exact .inr ⟨e, enter_of_see_error hsee part, fun part' _ => enter_of_see_error hsee part'⟩
  | ok entry =>
      cases entry with
      | file content executable =>
          exact .inr ⟨_, enter_of_file hsee part, fun part' _ => enter_of_file hsee part'⟩
      | directory =>
          rcases hidle with rfl | rfl
          · refine .inl ?_
            rw [enter, hsee]
            rfl
          · -- A dot searches the directory, as a name does.
            cases hsearch : d.obstacles.refusal? .search p with
            | none =>
                refine .inl ?_
                simp [enter, hsee, hsearch, bind, Except.bind]
            | some cause =>
                exact .inr ⟨cause, enter_of_unsearchable hsee hsearch (by decide),
                  fun _ hne => enter_of_unsearchable hsee hsearch hne⟩

theorem ne_empty_of_tells {part : String} (h : tells part.toList = true) : part ≠ "" := by
  rintro rfl
  cases h

/-- An idle part changes nothing where a name follows: both ask for a
directory. -/
theorem foldlM_enter_append (parts : List String) {last : String} (hlast : last ≠ "")
    (p : List String) : (parts ++ [last]).foldlM d.enter p
      = (parts.filter (tells ·.toList) ++ [last]).foldlM d.enter p := by
  induction parts generalizing p with
  | nil => rfl
  | cons part parts ih =>
      by_cases htells : tells part.toList = true
      · rw [List.filter_cons, if_pos htells, List.cons_append, List.cons_append,
          List.foldlM_cons, List.foldlM_cons]
        exact congrArg (d.enter p part >>= ·) (funext ih)
      · rw [List.filter_cons, if_neg htells, List.cons_append, List.foldlM_cons]
        rcases enter_idle d p (Bool.eq_false_iff.mpr htells) with hok | ⟨e, he, hrefused⟩
        · rw [hok]
          exact ih p
        · -- Where nothing can be entered, the part that follows is refused alike.
          obtain ⟨next, rest, hnext⟩ :=
            List.exists_cons_of_ne_nil (List.append_ne_nil_of_right_ne_nil
              (parts.filter (tells ·.toList)) (List.cons_ne_nil last []))
          have hmem : next ∈ parts.filter (tells ·.toList) ++ [last] := by
            rw [hnext]
            exact List.mem_cons_self
          have hne : next ≠ "" := by
            rcases List.mem_append.mp hmem with hname | hname
            · exact ne_empty_of_tells (List.mem_filter.mp hname).2
            · exact List.mem_singleton.mp hname ▸ hlast
          rw [he, hnext, List.foldlM_cons, hrefused next hne]
          rfl

theorem placeOf_of_tidy (h : Tidy path) (hname : name path ≠ "") :
    d.placeOf path = ((components (parent path)).filter (tells ·.toList) ++ [name path]).foldlM
      d.enter (if isAbsolute path then [] else d.here) := by
  obtain ⟨front, hparts, hfront⟩ := exists_parts_of_bare h.bare
  rw [List.reverse_reverse] at hparts
  have hne : path ≠ "" := by
    rintro rfl
    exact hname rfl
  have hfilter : (front.map String.ofList).filter (tells ·.toList)
      = (components (parent path)).filter (tells ·.toList) := by
    have hchars : (tells ·.toList) ∘ String.ofList = tells := by
      funext part
      exact congrArg tells String.toList_ofList
    rw [components, toList_parent, List.filter_map, List.filter_map, hchars, hfront]
  rw [placeOf, if_neg hne, if_neg (Nat.not_lt.mpr h.fits), parts, hparts, List.map_append,
    List.map_singleton, ← hfilter]
  exact foldlM_enter_append _ hname _

theorem alike_of_same (h : Same path path') (htidy : Tidy path) (htidy' : Tidy path') :
    Alike path path' := by
  intro d
  by_cases hname : name path = ""
  · have heq := htidy.bare.eq_of_no_name hname
    rw [h.name] at hname
    rw [heq, htidy'.bare.eq_of_no_name hname, h.absolute]
  · rw [placeOf_of_tidy htidy hname, placeOf_of_tidy htidy' (h.name ▸ hname), h.name,
      h.parent.components, h.absolute]

theorem Fits.of_append {base rest : String} (h : Fits (base ++ rest)) : Fits base := by
  simp only [Fits, String.utf8ByteSize_append] at h ⊢
  omega

theorem Tidy.parent (h : Tidy path) : Tidy (parent path) := by
  obtain ⟨rest, hrest⟩ := exists_append_of_parent path
  have hfits := h.fits
  rw [hrest] at hfits
  exact ⟨bare_parent path, hfits.of_append⟩

theorem alike_ancestors (h : Same path path') (htidy : Tidy path) (htidy' : Tidy path') :
    List.Forall₂ Alike (ancestors path) (ancestors path') := by
  induction path using parentInduction generalizing path' with
  | top path hname =>
      have hname' : name path' = "" := h.name ▸ hname
      rw [ancestors_of_no_name hname, ancestors_of_no_name hname']
      exact .nil
  | below path hname ih =>
      have hname' : name path' ≠ "" := by
        rw [← h.name]
        exact hname
      rw [ancestors_of_name hname, ancestors_of_name hname']
      exact .cons (alike_of_same h htidy htidy') (ih h.parent htidy.parent htidy'.parent)

/-! ## What is read, made or written -/

section Alike

variable {content : ByteArray}

theorem Alike.find (h : Alike path path') : d.find path = d.find path' := by
  rw [Disk.find, Disk.find, h d]

theorem Alike.readBytes (h : Alike path path') : d.readBytes path = d.readBytes path' := by
  rw [Disk.readBytes, Disk.readBytes, h d]

theorem Alike.write (h : Alike path path') : d.write path content = d.write path' content := by
  rw [Disk.write, Disk.write, h d]

theorem Alike.makeDirectory (h : Alike path path') :
    d.makeDirectory path = d.makeDirectory path' := by
  rw [Disk.makeDirectory, Disk.makeDirectory, h d]

theorem Alike.ensureDirectory (h : Alike path path') :
    d.ensureDirectory path = d.ensureDirectory path' := by
  rw [Disk.ensureDirectory, Disk.ensureDirectory, h.makeDirectory, isDirectory, isDirectory,
    h.find]

theorem makeChain_of_alike {paths paths' : List String} (h : List.Forall₂ Alike paths paths') :
    d.makeChain paths = d.makeChain paths' := by
  induction h with
  | nil => rfl
  | cons hpath _ ih => simp only [makeChain, hpath.makeDirectory, hpath.ensureDirectory, ih]

theorem makeDirectories_of_same (h : Same path path') (htidy : Tidy path) (htidy' : Tidy path') :
    d.makeDirectories path = d.makeDirectories path' :=
  makeChain_of_alike (alike_ancestors h htidy htidy')

end Alike

/-! ## From where we are -/

section Relative

variable (hne : path ≠ "") (hrelative : isAbsolute path = false)
include hne hrelative

theorem exists_parts_of_relative : ∃ first rest, parts path = first :: rest ∧ first ≠ "" := by
  obtain ⟨c, cs, hcs⟩ := List.exists_cons_of_ne_nil (mt String.toList_eq_nil_iff.mp hne)
  have hc : c ≠ '/' := by
    rintro rfl
    simp [isAbsolute, hcs] at hrelative
  obtain ⟨part, rest, hparts⟩ := List.exists_cons_of_ne_nil (partsOfChars_ne_nil cs)
  refine ⟨String.ofList (c :: part), rest.map String.ofList, ?_, by simp⟩
  rw [parts, hcs, partsOfChars, if_neg hc, hparts]
  rfl

theorem placeOf_of_relative (hfits : Fits path) (d : Disk) :
    d.placeOf path = (parts path).foldlM d.enter d.here := by
  rw [placeOf, if_neg hne, if_neg (Nat.not_lt.mpr hfits), hrelative]
  rfl

theorem placeOf_of_here_error (hfits : Fits path) {e : SystemError}
    (he : ∀ part, part ≠ "" → d.enter d.here part = .error e) : d.placeOf path = .error e := by
  obtain ⟨first, rest, hparts, hfirst⟩ := exists_parts_of_relative hne hrelative
  rw [placeOf_of_relative hne hrelative hfits, hparts, List.foldlM_cons, he first hfirst]
  rfl

/-- A lone dot in front of a relative path asks for the directory that the
path starts from, as the path itself does. -/
theorem alike_below_here (hfits : Fits ("." ++ "/" ++ path)) :
    Alike path ("." ++ "/" ++ path) := by
  intro d
  have hfits' : Fits path := by
    simp only [Fits, String.utf8ByteSize_append] at hfits ⊢
    omega
  have hne' : "." ++ "/" ++ path ≠ "" := by simp
  have hrelative' : isAbsolute ("." ++ "/" ++ path) = false := isAbsolute_below (by decide) path
  have hidle : tells ".".toList = false := rfl
  rcases enter_idle d d.here hidle with hok | ⟨e, -, he⟩
  · rw [placeOf_of_relative hne hrelative hfits', placeOf_of_relative hne' hrelative' hfits,
      parts_below]
    show _ = List.foldlM d.enter d.here ("." :: parts path)
    rw [List.foldlM_cons, hok]
    rfl
  · rw [placeOf_of_here_error hne hrelative hfits' he,
      placeOf_of_here_error hne' hrelative' hfits he]

end Relative

theorem placeOf_here (d : Disk) : d.placeOf "." = d.enter d.here "." := by
  show List.foldlM d.enter d.here ["."] = _
  rw [List.foldlM_cons]
  exact bind_pure _

theorem ensureDirectory_of_placeOf_error {e : SystemError} (h : d.placeOf path = .error e) :
    d.ensureDirectory path = (d, .error e) := by
  simp [ensureDirectory, makeDirectory, isDirectory, find, h, bind, Except.bind]

theorem makeChain_singleton (d : Disk) (path : String) :
    d.makeChain [path] = d.ensureDirectory path := by
  simp only [makeChain]
  split <;> rfl

/-- Nothing is made for the directory where we are: it is there, or no
relative path can be followed. -/
theorem makeChain_here (hne : path ≠ "") (hrelative : isAbsolute path = false)
    (hfits : Fits path) (d : Disk) : d.makeChain [path, "."] = d.makeChain [path] := by
  have hdot := makeChain_singleton d "."
  rw [makeChain_singleton d path, makeChain, hdot]
  have hidle : tells ".".toList = false := rfl
  rcases enter_idle d d.here hidle with hok | ⟨e, hdot, he⟩
  · have hplace := (placeOf_here d).trans hok
    have hhere : d.isDirectory "." = true :=
      isDirectory_iff.mpr (find_ok_iff.mpr ⟨_, hplace, see_of_enter hok⟩)
    have hthere : d.makeChain ["."] = (d, .ok ()) := makeDirectories_of_isDirectory hhere
    rw [← hdot, hthere]
    split <;> rfl
  · have hpath := placeOf_of_here_error hne hrelative hfits he
    have hrefused : d.makeDirectory path = .error e := by
      simp [makeDirectory, hpath, bind, Except.bind]
    rw [ensureDirectory_of_placeOf_error ((placeOf_here d).trans hdot),
      ensureDirectory_of_placeOf_error hpath, hrefused]
    split <;> rfl

end Disk

end AdvisoryGate
