import AdvisoryGate.Disk
import AdvisoryGate.Proofs.Lemmas
import AdvisoryGate.Proofs.PathComponents
import Mathlib.Data.List.Chain

/-!
# Changes to a disk

What `Disk.makeDirectories` and `Disk.write` do to a disk, whatever stands
there and whatever the system refuses. Making a directory only puts
directories where nothing was, each at the place of one of the paths above
the target (`onlyDirectories_makeDirectories`), and nothing at all if the
target is there, even if it cannot be seen (`makeDirectories_unchanged`).
Writing a file is refused and leaves the disk as it is, or it puts a file at
the place of the path (`write_cases`), which holds the content unless the
write breaks off (`Obstacles.fill_cases`).

All of this rests on two facts about walking: where directories stay and no
more is refused, paths lead where they led (`placeOf_of_grows`), and a path
below another leads through it (`isDirectory_of_placeOf_below`). So what a
walk finds is in the tree, and would be found if nothing were in the way
(`placeOf_unhindered`). The ancestors come first: each path in their list is
below the next one.
-/

namespace AdvisoryGate

namespace Path

/-- The path is another one with a slash and something more behind it. -/
def Below (base path : String) : Prop := base ≠ "" ∧ ∃ rest, path = base ++ "/" ++ rest

/-! ## Ancestors -/

/-- Only what stands behind a separator is dropped. -/
theorem bareReversed_cut {cs : List Char} (h : bareReversed cs ≠ ['/']) :
    bareReversed cs = cs ∨ ∃ t, cs = t ++ '/' :: bareReversed cs := by
  induction cs with
  | nil => exact .inl rfl
  | cons c cs ih =>
      rw [bareReversed] at h ⊢
      split at h <;> rename_i hcs
      · exact .inl (by rw [if_pos hcs, hcs])
      rw [if_neg hcs]
      split at h <;> rename_i hslash
      · rw [if_pos hslash, hslash]
        rcases ih h with heq | ⟨t, ht⟩
        · exact .inr ⟨[], by rw [heq]; rfl⟩
        · exact .inr ⟨'/' :: t, by rw [List.cons_append, ← ht]⟩
      rw [if_neg hslash]
      split at h <;> rename_i hdot
      · rw [if_pos hdot]
        rcases ih h with heq | ⟨t, ht⟩
        · -- A dot is dropped in front of a separator, which is dropped in turn.
          obtain ⟨r, hr⟩ := List.head?_eq_some_iff.mp hdot.2
          have hnil := bareReversed_slash (heq.trans hr)
          rw [hnil] at hr
          exact absurd (heq.trans hr) h
        · exact .inr ⟨c :: t, by rw [List.cons_append, ← ht]⟩
      · exact .inl (if_neg hdot)

/-- What stands in front of the parent ends in a separator, if the parent
has a name. -/
theorem parentReversed_cut {cs : List Char} (h : nameReversed (parentReversed cs) ≠ []) :
    ∃ t, cs = t ++ '/' :: parentReversed cs := by
  obtain ⟨front, hcs, hparent, hfront⟩ := exists_front cs
  obtain ⟨s, hs⟩ := isSuffix_bareReversed cs
  rw [hparent] at h ⊢
  rcases hfront with rfl | ⟨r, rfl⟩
  · exact absurd rfl h
  · have hroot : bareReversed ('/' :: r) ≠ ['/'] := by
      intro hroot
      rw [hroot] at h
      exact h rfl
    rcases bareReversed_cut hroot with heq | ⟨t, ht⟩
    · obtain rfl := bareReversed_slash heq
      exact absurd heq hroot
    · refine ⟨s ++ nameReversed cs ++ t, ?_⟩
      rw [List.append_assoc, ← ht, List.append_assoc, ← hcs, hs]

theorem below_parent {path : String} (h : name (parent path) ≠ "") :
    Below (parent path) path := by
  have hname := mt name_eq_empty_iff.mpr h
  rw [toList_parent, List.reverse_reverse] at hname
  obtain ⟨t, ht⟩ := parentReversed_cut hname
  refine ⟨?_, String.ofList t.reverse, ?_⟩
  · intro hempty
    rw [hempty] at h
    exact h rfl
  · rw [← String.toList_inj, ← List.reverse_inj, ht]
    simp [toList_parent]

theorem isChain_ancestors (path : String) :
    (ancestors path).IsChain fun path base => Below base path := by
  induction path using parentInduction with
  | top path hname =>
      rw [ancestors_of_no_name hname]
      exact .nil
  | below path hname ih =>
      rw [ancestors_of_name hname]
      by_cases hparent : name (parent path) = ""
      · rw [ancestors_of_no_name hparent]
        exact .singleton path
      · rw [ancestors_of_name hparent] at ih ⊢
        exact .cons_cons (below_parent hparent) ih

theorem ancestors_eq (path : String) :
    ancestors path = [] ∨ ∃ above, ancestors path = path :: above := by
  by_cases hname : name path = ""
  · exact .inl (ancestors_of_no_name hname)
  · exact .inr ⟨_, ancestors_of_name hname⟩

end Path

namespace Obstacles

/-! ## Room -/

/-- A file of this size fits wherever one can be written. -/
def HasRoom (o : Obstacles) (size : Nat) : Prop :=
  ∀ p room cause, o.refusal? .write p = .none → o.room? p = some (room, cause) → size ≤ room

variable {o : Obstacles} {p : List String} {content : ByteArray}

theorem hasRoom_none (size : Nat) : Obstacles.none.HasRoom size := nofun

theorem fill_of_hasRoom (h : o.HasRoom content.size) (hfree : o.refusal? .write p = .none) :
    o.fill p content = (content, .ok ()) := by
  rw [fill]
  split
  · rfl
  · rename_i room cause hroom
    exact if_neg (Nat.not_lt.mpr (h p room cause hfree hroom))

/-- A write is complete, or it breaks off where the room ends. -/
theorem fill_cases (o : Obstacles) (p : List String) (content : ByteArray) :
    o.fill p content = (content, .ok ()) ∨ ∃ room cause, o.room? p = some (room, cause)
      ∧ room < content.size ∧ o.fill p content = (content.extract 0 room, .error cause) := by
  rw [fill]
  split
  · exact .inl rfl
  · split
    · exact .inr ⟨_, _, ‹_›, ‹_›, rfl⟩
    · exact .inl rfl

end Obstacles

namespace Disk

/-! ## Walking -/

/-- What was a directory is one still, relative paths start from the same
one, and no more is refused. -/
structure Grows (d d' : Disk) : Prop where
  here : d'.here = d.here
  stays : ∀ p, d.get? p = some .directory → d'.get? p = some .directory
  eases : ∀ a p, d.obstacles.refusal? a p = none → d'.obstacles.refusal? a p = none

variable {d d' : Disk} {path : String} {place : List String}

theorem see_ok_iff {p : List String} {e : Entry} :
    d.see p = .ok e ↔ d.obstacles.refusal? .look p = none ∧ d.get? p = some e := by
  rw [see]
  split <;> simp_all

theorem see_of_enter {part : String} {p : List String} (h : d.enter p part = .ok place) :
    d.see p = .ok .directory := by
  rw [enter, bind_ok_iff] at h
  obtain ⟨e, he, h⟩ := h
  cases e with
  | file content executable => cases h
  | directory => exact he

/-- A part that is a name leads below the place. -/
theorem eq_of_enter_name {part : String} {p : List String} (h : d.enter p part = .ok place)
    (hempty : part ≠ "") (hdot : part ≠ ".") (hdots : part ≠ "..") : place = p ++ [part] := by
  rw [enter, see_of_enter h] at h
  dsimp only [bind, Except.bind] at h
  rw [if_neg hempty, if_neg hdot, if_neg hdots] at h
  split at h
  · cases h
  · split at h
    · cases h
    · exact (Except.ok.inj h).symm

theorem enter_of_grows (hgrows : d.Grows d') {part : String} {p : List String}
    (h : d.enter p part = .ok place) : d'.enter p part = .ok place := by
  have hsee := see_of_enter h
  obtain ⟨hlook, hdirectory⟩ := see_ok_iff.mp hsee
  have hsee' : d'.see p = .ok .directory :=
    see_ok_iff.mpr ⟨hgrows.eases _ _ hlook, hgrows.stays p hdirectory⟩
  rw [enter, hsee] at h
  rw [enter, hsee']
  dsimp only [bind, Except.bind] at h ⊢
  by_cases hpart : part = ""
  · rwa [if_pos hpart] at h ⊢
  · rw [if_neg hpart] at h ⊢
    cases hsearch : d.obstacles.refusal? .search p with
    | some cause =>
        rw [hsearch] at h
        cases h
    | none =>
        rw [hsearch] at h
        rw [hgrows.eases _ _ hsearch]
        exact h

theorem foldlM_enter_of_grows (hgrows : d.Grows d') {parts : List String} {p : List String}
    (h : parts.foldlM d.enter p = .ok place) : parts.foldlM d'.enter p = .ok place := by
  induction parts generalizing p with
  | nil => exact h
  | cons part parts ih =>
      rw [List.foldlM_cons, bind_ok_iff] at h ⊢
      obtain ⟨q, hq, hrest⟩ := h
      exact ⟨q, enter_of_grows hgrows hq, ih hrest⟩

theorem placeOf_ok_iff : d.placeOf path = .ok place ↔ path ≠ "" ∧ path.utf8ByteSize ≤ maxPath
    ∧ (Path.parts path).foldlM d.enter (if Path.isAbsolute path then [] else d.here)
      = .ok place := by
  rw [placeOf]
  split
  · rename_i hempty
    exact ⟨nofun, fun h => absurd hempty h.1⟩
  · split
    · rename_i hlong
      exact ⟨nofun, fun h => absurd h.2.1 (by omega)⟩
    · rename_i hne hshort
      exact ⟨fun h => ⟨hne, by omega, h⟩, fun h => h.2.2⟩

theorem placeOf_of_grows (hgrows : d.Grows d') (h : d.placeOf path = .ok place) :
    d'.placeOf path = .ok place := by
  rw [placeOf_ok_iff] at h ⊢
  obtain ⟨hne, hsize, hwalk⟩ := h
  rw [hgrows.here]
  exact ⟨hne, hsize, foldlM_enter_of_grows hgrows hwalk⟩

theorem grows_under {o : Obstacles}
    (h : ∀ a p, d.obstacles.refusal? a p = none → o.refusal? a p = none) : d.Grows (d.under o) :=
  ⟨rfl, fun _ hp => hp, h⟩

theorem placeOf_unhindered (h : d.placeOf path = .ok place) :
    (d.under .none).placeOf path = .ok place :=
  placeOf_of_grows (grows_under fun _ _ _ => rfl) h

theorem find_ok_iff {e : Entry} :
    d.find path = .ok e ↔ ∃ p, d.placeOf path = .ok p ∧ d.see p = .ok e := by
  rw [find, bind_ok_iff]

theorem holds_of_find {e : Entry} (h : d.find path = .ok e) : d.holds path = true := by
  rw [holds, h]
  rfl

theorem holds_of_find_error {cause : SystemError} (h : d.find path = .error cause) :
    d.holds path = false := by
  rw [holds, h]
  rfl

theorem readBytes_ok_iff {content : ByteArray} : d.readBytes path = .ok content
    ↔ ∃ p executable, d.placeOf path = .ok p ∧ d.see p = .ok (.file content executable)
      ∧ d.obstacles.refusal? .read p = none := by
  simp only [readBytes, bind_ok_iff]
  refine exists_congr fun p => ⟨?_, ?_⟩
  · rintro ⟨hp, e, he, hcontent⟩
    split at hcontent
    · cases hcontent
    · cases hcontent
    · obtain rfl := Except.ok.inj hcontent
      exact ⟨_, hp, he, ‹_›⟩
  · rintro ⟨executable, hp, he, hread⟩
    exact ⟨hp, _, he, by rw [hread]⟩

theorem readText_ok_iff {text : String} : d.readText path = .ok text
    ↔ ∃ content, d.readBytes path = .ok content ∧ String.fromUTF8? content = some text := by
  rw [readText, bind_ok_iff]
  refine exists_congr fun content => and_congr_right fun _ => ?_
  cases String.fromUTF8? content <;> simp

/-- What can be read can be read where no more is refused. -/
theorem readBytes_under {o : Obstacles} {content : ByteArray}
    (heases : ∀ a p, d.obstacles.refusal? a p = none → o.refusal? a p = none)
    (h : d.readBytes path = .ok content) : (d.under o).readBytes path = .ok content := by
  obtain ⟨p, executable, hp, hsee, hread⟩ := readBytes_ok_iff.mp h
  obtain ⟨hlook, hfile⟩ := see_ok_iff.mp hsee
  have hsee' : (d.under o).see p = .ok (.file content executable) :=
    see_ok_iff.mpr ⟨heases _ _ hlook, hfile⟩
  exact readBytes_ok_iff.mpr
    ⟨p, executable, placeOf_of_grows (grows_under heases) hp, hsee', heases _ _ hread⟩

theorem isDirectory_iff : d.isDirectory path = true ↔ d.find path = .ok .directory := by
  rw [isDirectory]
  split <;> simp_all

/-- What is below a path is reached through it. -/
theorem isDirectory_of_placeOf_below {base : String} (hbelow : Path.Below base path)
    (h : d.placeOf path = .ok place) : d.isDirectory base = true := by
  obtain ⟨hne, rest, rfl⟩ := hbelow
  rw [placeOf_ok_iff, Path.isAbsolute_below hne, Path.parts_below, List.foldlM_append,
    bind_ok_iff] at h
  obtain ⟨-, hsize, p, hbase, hrest⟩ := h
  have hplace : d.placeOf base = .ok p := by
    refine placeOf_ok_iff.mpr ⟨hne, ?_, hbase⟩
    simp only [String.utf8ByteSize_append] at hsize
    omega
  obtain ⟨part, parts, hparts⟩ := Path.exists_parts rest
  rw [hparts, List.foldlM_cons, bind_ok_iff] at hrest
  obtain ⟨q, hq, -⟩ := hrest
  exact isDirectory_iff.mpr (find_ok_iff.mpr ⟨p, hplace, see_of_enter hq⟩)

theorem isDirectory_of_isChain {paths : List String}
    (hchain : paths.IsChain fun path base => Path.Below base path)
    (hhead : ∀ path ∈ paths.head?, d.isDirectory path = true) :
    ∀ path ∈ paths, d.isDirectory path = true := by
  induction paths with
  | nil => exact nofun
  | cons path above ih =>
      have hpath := hhead path rfl
      refine List.forall_mem_cons.mpr ⟨hpath, ih hchain.of_cons fun base hbase => ?_⟩
      obtain ⟨p, hp, -⟩ := find_ok_iff.mp (isDirectory_iff.mp hpath)
      exact isDirectory_of_placeOf_below (hchain.rel_head? hbase) hp

theorem isDirectory_of_mem_ancestors (h : d.isDirectory path = true) :
    ∀ above ∈ Path.ancestors path, d.isDirectory above = true := by
  refine isDirectory_of_isChain (Path.isChain_ancestors path) fun first hfirst => ?_
  rcases Path.ancestors_eq path with hnil | ⟨above, habove⟩
  · rw [hnil] at hfirst
    cases hfirst
  · rw [habove] at hfirst
    exact Option.some.inj hfirst ▸ h

/-! ## Putting entries -/

@[simp] theorem get?_put_self (d : Disk) (p : List String) (e : Entry) :
    (d.put p e).get? p = some e := if_pos rfl

theorem get?_put_of_ne {p q : List String} (h : q ≠ p) (e : Entry) :
    (d.put p e).get? q = d.get? q := if_neg h

theorem grows_put {p : List String} (hp : d.get? p ≠ some .directory) (e : Entry) :
    d.Grows (d.put p e) := by
  refine ⟨rfl, fun q hq => ?_, fun _ _ hfree => hfree⟩
  rw [get?_put_of_ne _ e, hq]
  rintro rfl
  exact hp hq

theorem put_of_get? {p : List String} {e : Entry} (h : d.get? p = some e) : d.put p e = d := by
  have hget : (d.put p e).get? = d.get? := by
    funext q
    by_cases hq : q = p
    · rw [hq, get?_put_self, h]
    · exact get?_put_of_ne hq e
  show { d with get? := (d.put p e).get? } = d
  rw [hget]

/-! ## Making directories -/

/-- Some directories were made where nothing was, each at the place that
one of the paths leads to, and nothing else has changed. -/
structure OnlyDirectories (paths : List String) (d d' : Disk) : Prop where
  here : d'.here = d.here
  obstacles : d'.obstacles = d.obstacles
  made : ∀ p, d'.get? p = d.get? p ∨ d.get? p = none ∧ d'.get? p = some .directory
    ∧ ∃ path ∈ paths, d'.placeOf path = .ok p

variable {paths : List String}

theorem OnlyDirectories.refl (paths : List String) (d : Disk) : OnlyDirectories paths d d :=
  ⟨rfl, rfl, fun _ => .inl rfl⟩

theorem OnlyDirectories.keeps (h : OnlyDirectories paths d d') {p : List String} {e : Entry}
    (hp : d.get? p = some e) : d'.get? p = some e := by
  rcases h.made p with heq | ⟨hnone, -⟩
  · exact heq.trans hp
  · rw [hp] at hnone
    cases hnone

theorem OnlyDirectories.grows (h : OnlyDirectories paths d d') : d.Grows d' := by
  refine ⟨h.here, fun _ hp => h.keeps hp, fun a p hfree => ?_⟩
  rw [h.obstacles]
  exact hfree

theorem OnlyDirectories.trans {d₁ d₂ d₃ : Disk} (h : OnlyDirectories paths d₁ d₂)
    (h' : OnlyDirectories paths d₂ d₃) : OnlyDirectories paths d₁ d₃ := by
  refine ⟨h'.here.trans h.here, h'.obstacles.trans h.obstacles, fun p => ?_⟩
  rcases h.made p with heq | ⟨hnone, hmade, path, hpath, hplace⟩
  · rw [← heq]
    exact h'.made p
  · exact .inr ⟨hnone, h'.keeps hmade, path, hpath, placeOf_of_grows h'.grows hplace⟩

theorem OnlyDirectories.mono {paths' : List String} (hsub : ∀ path ∈ paths, path ∈ paths')
    (h : OnlyDirectories paths d d') : OnlyDirectories paths' d d' := by
  refine ⟨h.here, h.obstacles, fun p => (h.made p).imp_right ?_⟩
  rintro ⟨hnone, hmade, path, hpath, hplace⟩
  exact ⟨hnone, hmade, path, hsub path hpath, hplace⟩

theorem makeDirectory_ok (h : d.makeDirectory path = .ok d') :
    ∃ p, d.placeOf path = .ok p ∧ d.get? p = none ∧ d' = d.put p .directory := by
  rw [makeDirectory, bind_ok_iff] at h
  obtain ⟨p, hp, h⟩ := h
  split at h
  · cases h
  · cases h
  · exact ⟨p, hp, ‹_›, (Except.ok.inj h).symm⟩

theorem onlyDirectories_makeDirectory (h : d.makeDirectory path = .ok d') :
    OnlyDirectories [path] d d' := by
  obtain ⟨q, hq, hnone, rfl⟩ := makeDirectory_ok h
  have hgrows : d.Grows (d.put q .directory) := grows_put (by simp [hnone]) _
  refine ⟨rfl, rfl, fun p => ?_⟩
  by_cases hp : p = q
  · rw [hp]
    exact .inr ⟨hnone, get?_put_self d q _, path, List.mem_singleton_self path,
      placeOf_of_grows hgrows hq⟩
  · exact .inl (get?_put_of_ne hp _)

theorem onlyDirectories_ensureDirectory (d : Disk) (path : String) :
    OnlyDirectories [path] d (d.ensureDirectory path).1 := by
  rw [ensureDirectory]
  split
  · exact onlyDirectories_makeDirectory ‹_›
  · exact .refl _ _

theorem onlyDirectories_makeChain (d : Disk) (paths : List String) :
    OnlyDirectories paths d (d.makeChain paths).1 := by
  induction paths with
  | nil => exact .refl _ _
  | cons path above ih =>
      have hensure : ∀ d, OnlyDirectories (path :: above) d (d.ensureDirectory path).1 :=
        fun d => (onlyDirectories_ensureDirectory d path).mono (by simp)
      have habove : OnlyDirectories (path :: above) d (d.makeChain above).1 :=
        ih.mono fun _ => List.mem_cons_of_mem path
      rw [makeChain]
      split
      · split
        · rename_i d' hd'
          rw [hd'] at habove
          exact habove.trans (hensure d')
        · rename_i d' e hd'
          rw [hd'] at habove
          exact habove
      · exact hensure d

theorem onlyDirectories_makeDirectories (d : Disk) (path : String) :
    OnlyDirectories (Path.ancestors path) d (d.makeDirectories path).1 :=
  onlyDirectories_makeChain d _

theorem ensureDirectory_unchanged (h : ∀ p, d.placeOf path = .ok p → d.get? p ≠ none) :
    (d.ensureDirectory path).1 = d := by
  rw [ensureDirectory]
  split
  · obtain ⟨p, hp, hnone, -⟩ := makeDirectory_ok ‹_›
    exact absurd hnone (h p hp)
  · rfl

theorem makeChain_unchanged (h : ∀ path ∈ paths, ∀ p, d.placeOf path = .ok p → d.get? p ≠ none) :
    (d.makeChain paths).1 = d := by
  induction paths with
  | nil => rfl
  | cons path above ih =>
      obtain ⟨hpath, habove⟩ := List.forall_mem_cons.mp h
      have hchain := ih habove
      rw [makeChain]
      split
      · split
        · rename_i d' hd'
          rw [hd'] at hchain
          obtain rfl := hchain
          exact ensureDirectory_unchanged hpath
        · rename_i d' e hd'
          rw [hd'] at hchain
          exact hchain
      · exact ensureDirectory_unchanged hpath

/-- Nothing is made above a directory that is there, even if the system does
not let it be reached. -/
theorem makeDirectories_unchanged (h : (d.under .none).isDirectory path = true) :
    (d.makeDirectories path).1 = d := by
  refine makeChain_unchanged fun above habove p hp hnone => ?_
  obtain ⟨q, hq, hsee⟩ :=
    find_ok_iff.mp (isDirectory_iff.mp (isDirectory_of_mem_ancestors h above habove))
  obtain rfl := Except.ok.inj ((placeOf_unhindered hp).symm.trans hq)
  cases hnone.symm.trans (see_ok_iff.mp hsee).2

theorem makeDirectories_of_isDirectory (h : d.isDirectory path = true) :
    d.makeDirectories path = (d, .ok ()) := by
  obtain ⟨p, hp, hsee⟩ := find_ok_iff.mp (isDirectory_iff.mp h)
  have hrefused : d.makeDirectory path = .error .alreadyExists := by
    simp [makeDirectory, hp, (see_ok_iff.mp hsee).2, bind, Except.bind]
  rw [makeDirectories]
  rcases Path.ancestors_eq path with hnil | ⟨above, habove⟩
  · rw [hnil, makeChain]
  · rw [habove, makeChain, hrefused]
    show d.ensureDirectory path = _
    rw [ensureDirectory, hrefused, h]
    rfl

/-! ## Writing -/

variable {p : List String} {content : ByteArray}

theorem write_of_placeOf (hp : d.placeOf path = .ok p) (hne : d.get? p ≠ some .directory)
    (hfree : d.obstacles.refusal? .write p = none) :
    d.write path content = (d.put p (.file (d.obstacles.fill p content).1 (modeOf (d.get? p))),
      (d.obstacles.fill p content).2) := by
  simp only [write, hp, hfree]

/-- A write is refused, or the file is opened and filled. -/
theorem write_cases (d : Disk) (path : String) (content : ByteArray) :
    (∃ e, d.write path content = (d, .error e))
      ∨ ∃ p, d.placeOf path = .ok p ∧ d.get? p ≠ some .directory
        ∧ d.obstacles.refusal? .write p = none ∧ d.write path content
          = (d.put p (.file (d.obstacles.fill p content).1 (modeOf (d.get? p))),
            (d.obstacles.fill p content).2) := by
  cases hp : d.placeOf path with
  | error e => exact .inl ⟨e, by rw [write, hp]⟩
  | ok p =>
      by_cases hdirectory : d.get? p = some .directory
      · exact .inl ⟨.isDirectory, by simp [write, hp, hdirectory]⟩
      · cases hfree : d.obstacles.refusal? .write p with
        | none => exact .inr ⟨p, rfl, hdirectory, hfree, write_of_placeOf hp hdirectory hfree⟩
        | some cause =>
            refine .inl ⟨cause, ?_⟩
            simp only [write, hp, hfree]

end Disk

end AdvisoryGate
