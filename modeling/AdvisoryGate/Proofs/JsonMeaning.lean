import AdvisoryGate.Proofs.JsonReading
import AdvisoryGate.Proofs.JsonSchema
import AdvisoryGate.Proofs.Lemmas

/-!
# What a JSON value means

As far as JSON goes, an object is a map, in which of several members with
one name the last counts, and an array is a list. `Same` says of two values
that they are equal in this sense. The program compares canonical forms
instead, and that comes to the same (`same_iff`): members in ascending order
are determined by what is found under each name.

A tree is rearranged (`Rearranged`) by putting the members of an object
anywhere in it into another order, as long as of those with one name the
last stays the last. This neither changes what the value means nor whether
there is one (`Rearranged.canonical_eq`).
-/

namespace AdvisoryGate.Json

/-- The values are the same as far as JSON goes. Numbers are compared as
they are written. -/
inductive Same : Value → Value → Prop
  | null : Same .null .null
  | boolean (b : Bool) : Same (.boolean b) (.boolean b)
  | number (negative : Bool) (x : Double.Decimal) : Same (.number negative x) (.number negative x)
  | string (s : String) : Same (.string s) (.string s)
  | array {vs vs' : List Value} : vs.length = vs'.length →
      (∀ (i : Nat) v v', vs[i]? = some v → vs'[i]? = some v' → Same v v') →
        Same (.array vs) (.array vs')
  | object {ms ms' : List (String × Value)} :
      (∀ name, (lastMember? name ms).isSome = (lastMember? name ms').isSome) →
      (∀ name v v', lastMember? name ms = some v → lastMember? name ms' = some v' → Same v v') →
        Same (.object ms) (.object ms')

/-- The tree has been rearranged: members of objects stand in another order,
but the last with some name is the last as before. -/
inductive Rearranged : Tree → Tree → Prop
  | refl (t : Tree) : Rearranged t t
  | trans {t t' t'' : Tree} : Rearranged t t' → Rearranged t' t'' → Rearranged t t''
  | permuted {ms ms' : List (Option String × Tree)} : ms.Perm ms' →
      (∀ name, ms.findRev? (·.1 = name) = ms'.findRev? (·.1 = name)) →
        Rearranged (.object ms) (.object ms')
  | item {before behind : List Tree} {t t' : Tree} : Rearranged t t' →
      Rearranged (.array (before ++ t :: behind)) (.array (before ++ t' :: behind))
  | member {before behind : List (Option String × Tree)} {name : Option String} {t t' : Tree} :
      Rearranged t t' → Rearranged (.object (before ++ (name, t) :: behind))
        (.object (before ++ (name, t') :: behind))

/-! ## Members in order -/

/-- The names ascend, so each of them stands there once. -/
def InOrder (ms : List (String × Value)) : Prop :=
  ms.Pairwise fun m m' => Text.Precedes m.1 m'.1

section Order

variable {name : String} {v : Value} {m : String × Value} {ms ms' done : List (String × Value)}

theorem mem_insertMember (h : m ∈ Value.insertMember name v ms) : m = (name, v) ∨ m ∈ ms := by
  induction ms with
  | nil => exact .inl (List.mem_singleton.mp h)
  | cons k ms ih =>
      obtain ⟨n, w⟩ := k
      rw [Value.insertMember] at h
      split at h
      · exact List.mem_cons.mp h
      · rcases List.mem_cons.mp h with h | h
        · exact .inl h
        · exact .inr (List.mem_cons_of_mem _ h)
      · rcases List.mem_cons.mp h with h | h
        · exact .inr (List.mem_cons.mpr (.inl h))
        · exact (ih h).imp_right (List.mem_cons_of_mem _)

theorem InOrder.insertMember (h : InOrder ms) : InOrder (Value.insertMember name v ms) := by
  induction ms with
  | nil => exact List.pairwise_singleton ..
  | cons k ms ih =>
      obtain ⟨n, w⟩ := k
      obtain ⟨hfirst, hrest⟩ := List.pairwise_cons.mp h
      rw [Value.insertMember]
      split
      · rename_i horder
        have hname := Text.order_lt_iff.mp horder
        refine List.pairwise_cons.mpr ⟨List.forall_mem_cons.mpr ⟨hname, fun m hm => ?_⟩, h⟩
        exact hname.trans (hfirst m hm)
      · rename_i horder
        obtain rfl := Text.order_eq_iff.mp horder
        exact List.pairwise_cons.mpr ⟨hfirst, hrest⟩
      · rename_i horder
        refine List.pairwise_cons.mpr ⟨fun m hm => ?_, ih hrest⟩
        rcases mem_insertMember hm with rfl | hm
        · exact Text.order_gt_iff.mp horder
        · exact hfirst m hm

theorem InOrder.canonicalMembers (h : InOrder done) :
    InOrder (Value.canonicalMembers done ms) := by
  induction ms generalizing done with
  | nil => exact h
  | cons m ms ih =>
      rw [Value.canonicalMembers]
      exact ih h.insertMember

theorem lookup_eq_none_of_precedes (h : ∀ m ∈ ms, Text.Precedes name m.1) :
    ms.lookup name = none := by
  refine List.lookup_eq_none_iff.mpr fun m hm => bne_iff_ne.mpr ?_
  rintro rfl
  exact Text.Precedes.irrefl _ (h m hm)

/-- Members in order are determined by what is found under each name. -/
theorem InOrder.ext (h : InOrder ms) (h' : InOrder ms') (heq : ∀ n, ms.lookup n = ms'.lookup n) :
    ms = ms' := by
  induction ms generalizing ms' with
  | nil =>
      cases ms' with
      | nil => rfl
      | cons k' ms' =>
          have hfirst := heq k'.1
          rw [List.lookup_cons_self] at hfirst
          cases hfirst
  | cons k ms ih =>
      obtain ⟨n, w⟩ := k
      obtain ⟨hfirst, hrest⟩ := List.pairwise_cons.mp h
      cases ms' with
      | nil =>
          have hfirst := heq n
          rw [List.lookup_cons_self] at hfirst
          cases hfirst
      | cons k' ms' =>
          obtain ⟨n', w'⟩ := k'
          obtain ⟨hfirst', hrest'⟩ := List.pairwise_cons.mp h'
          -- The lower of two different first names is found on one side only.
          rcases Text.Precedes.trichotomy n n' with hlt | rfl | hgt
          · have hnone : ((n', w') :: ms').lookup n = none :=
              lookup_eq_none_of_precedes (List.forall_mem_cons.mpr
                ⟨hlt, fun m hm => hlt.trans (hfirst' m hm)⟩)
            rw [← heq n, List.lookup_cons_self] at hnone
            cases hnone
          · have hvalue := heq n
            rw [List.lookup_cons_self, List.lookup_cons_self] at hvalue
            obtain rfl := Option.some.inj hvalue
            refine congrArg _ (ih hrest hrest' fun k => ?_)
            have hk := heq k
            rw [lookup_cons_eq, lookup_cons_eq] at hk
            split at hk
            · rename_i hkn
              rw [hkn, lookup_eq_none_of_precedes hfirst, lookup_eq_none_of_precedes hfirst']
            · exact hk
          · have hnone : ((n, w) :: ms).lookup n' = none :=
              lookup_eq_none_of_precedes (List.forall_mem_cons.mpr
                ⟨hgt, fun m hm => hgt.trans (hfirst m hm)⟩)
            rw [heq n', List.lookup_cons_self] at hnone
            cases hnone

/-- Objects have one canonical form if the members that count have. -/
theorem canonicalMembers_eq_iff :
    Value.canonicalMembers [] ms = Value.canonicalMembers [] ms' ↔
      ∀ n, (lastMember? n ms).map Value.canonical = (lastMember? n ms').map Value.canonical := by
  constructor
  · exact lastMember?_congr
  · intro h
    have hnil : InOrder [] := List.Pairwise.nil
    refine InOrder.ext hnil.canonicalMembers hnil.canonicalMembers fun n => ?_
    rw [lookup_canonicalMembers, lookup_canonicalMembers, h]

end Order

/-! ## Sameness -/

theorem mem_of_lastMember? {name : String} {v : Value} : ∀ {ms : List (String × Value)},
    lastMember? name ms = some v → (name, v) ∈ ms
  | (n, w) :: ms, h => by
      rw [lastMember?, Option.or_eq_some_iff] at h
      rcases h with h | ⟨-, h⟩
      · exact List.mem_cons_of_mem _ (mem_of_lastMember? h)
      · split at h
        · rename_i hn
          obtain rfl := Option.some.inj h
          rw [hn]
          exact List.mem_cons_self ..
        · cases h

/-- Induction over the values inside a value. -/
theorem Value.induct {P : Value → Prop} (null : P .null) (boolean : ∀ b, P (.boolean b))
    (number : ∀ negative x, P (.number negative x)) (string : ∀ s, P (.string s))
    (array : ∀ vs : List Value, (∀ v ∈ vs, P v) → P (.array vs))
    (object : ∀ ms : List (String × Value), (∀ m ∈ ms, P m.2) → P (.object ms)) : ∀ v, P v
  | .null => null
  | .boolean b => boolean b
  | .number negative x => number negative x
  | .string s => string s
  | .array vs => array vs fun v _ => Value.induct null boolean number string array object v
  | .object ms => object ms fun (name, v) hm => by
      have hvalue : sizeOf v < sizeOf (name, v) := by
        rw [Prod.mk.sizeOf_spec]
        omega
      have hmember := List.sizeOf_lt_of_mem hm
      exact Value.induct null boolean number string array object v
termination_by v => sizeOf v

theorem Same.canonical_eq {a b : Value} (h : Same a b) : a.canonical = b.canonical := by
  induction h with
  | null => rfl
  | boolean b => rfl
  | number negative x => rfl
  | string s => rfl
  | @array vs vs' hlength _ ih =>
      rw [Value.canonical, Value.canonical, canonicalItems_eq_map, canonicalItems_eq_map]
      refine congrArg _ (List.ext_getElem (by simpa using hlength) fun i hi hi' => ?_)
      rw [List.getElem_map, List.getElem_map]
      rw [List.length_map] at hi hi'
      exact ih i _ _ (List.getElem?_eq_getElem hi) (List.getElem?_eq_getElem hi')
  | @object ms ms' hnames _ ih =>
      refine congrArg Value.object (canonicalMembers_eq_iff.mpr fun name => ?_)
      rcases both_of_isSome_eq (hnames name) with ⟨hv, hv'⟩ | ⟨v, v', hv, hv'⟩
      · rw [hv, hv']
      · rw [hv, hv', Option.map_some, Option.map_some, ih name v v' hv hv']

theorem same_of_canonical_eq {a b : Value} (h : a.canonical = b.canonical) : Same a b := by
  induction a using Value.induct generalizing b with
  | null =>
      cases b <;> cases h
      exact .null
  | boolean b =>
      cases b <;> cases h
      exact .boolean b
  | number negative x =>
      cases b <;> cases h
      exact .number negative x
  | string s =>
      cases b <;> cases h
      exact .string s
  | array vs ih =>
      cases b with
      | array vs' =>
          rw [Value.canonical, Value.canonical, canonicalItems_eq_map, canonicalItems_eq_map] at h
          have hitems := Value.array.inj h
          refine .array (by simpa using congrArg List.length hitems) fun i v v' hv hv' => ?_
          have hi := congrArg (·[i]?) hitems
          simp only [List.getElem?_map, hv, hv', Option.map_some] at hi
          exact ih v (List.mem_of_getElem? hv) (Option.some.inj hi)
      | _ => cases h
  | object ms ih =>
      cases b with
      | object ms' =>
          have hmembers := canonicalMembers_eq_iff.mp (Value.object.inj h)
          refine .object (fun name => ?_) fun name v v' hv hv' => ?_
          · have hsome := congrArg Option.isSome (hmembers name)
            rwa [Option.isSome_map, Option.isSome_map] at hsome
          · have hname := hmembers name
            rw [hv, hv'] at hname
            exact ih _ (mem_of_lastMember? hv) (Option.some.inj hname)
      | _ => cases h

/-- **Values are the same if their canonical forms are equal.** -/
theorem same_iff {a b : Value} : Same a b ↔ a.canonical = b.canonical :=
  ⟨Same.canonical_eq, same_of_canonical_eq⟩

/-- A member that another of its name replaces does not count. -/
theorem same_of_replaced {name : String} {ms : List (String × Value)}
    (h : (lastMember? name ms).isSome = true) (v : Value) :
    Same (.object ((name, v) :: ms)) (.object ms) := by
  refine same_iff.mpr (congrArg Value.object (canonicalMembers_eq_iff.mpr fun n => ?_))
  rw [lastMember?]
  split
  · rename_i hn
    obtain ⟨w, hw⟩ := Option.isSome_iff_exists.mp h
    rw [← hn, hw, Option.some_or]
  · rw [Option.or_none]

/-! ## Rearranging -/

section Rearranging

variable {depth : Nat} {ms ms' : List (Option String × Tree)}

theorem lastMember?_eq (name : String) (vs : List (String × Value)) :
    lastMember? name vs = (vs.findRev? (·.1 = name)).map (·.2) := by
  induction vs with
  | nil => rfl
  | cons m vs ih =>
      rw [lastMember?, findRev?_cons, ih, Option.map_or]
      by_cases hm : m.1 = name
      · simp [hm]
      · simp [hm]

/-- Which member is the last can be seen before the members have values. -/
theorem lastMember?_of_values {vs : List (String × Value)} (h : memberValues? depth ms = some vs)
    (name : String) : lastMember? name vs
      = ((ms.findRev? (·.1 = some name)).bind fun m => memberValue? depth m.1 m.2).map (·.2) := by
  have hname : ∀ (m : Option String × Tree) (v : String × Value),
      memberValue? depth m.1 m.2 = some v → decide (m.1 = some name) = decide (v.1 = name) := by
    intro m v hv
    obtain ⟨n, hn, hrest⟩ := Option.bind_eq_some_iff.mp hv
    obtain ⟨w, -, heq⟩ := Option.bind_eq_some_iff.mp hrest
    obtain rfl := Option.some.inj heq
    simp [hn]
  rw [memberValues?_eq] at h
  rw [lastMember?_eq, findRev?_of_mapM hname h]

theorem memberValues?_permuted (hperm : ms.Perm ms')
    (hlast : ∀ name, ms.findRev? (·.1 = name) = ms'.findRev? (·.1 = name)) :
    (memberValues? depth ms).map (Value.canonicalMembers [])
      = (memberValues? depth ms').map (Value.canonicalMembers []) := by
  have hsome : (memberValues? depth ms).isSome = (memberValues? depth ms').isSome := by
    rw [memberValues?_eq, memberValues?_eq, isSome_mapM, isSome_mapM]
    exact hperm.all_eq
  rcases both_of_isSome_eq hsome with ⟨hvs, hvs'⟩ | ⟨vs, vs', hvs, hvs'⟩
  · rw [hvs, hvs']
  · rw [hvs, hvs', Option.map_some, Option.map_some]
    refine congrArg some (canonicalMembers_eq_iff.mpr fun name => ?_)
    rw [lastMember?_of_values hvs, lastMember?_of_values hvs', hlast]

/-- The canonical form depends on the names and on what each value means. -/
theorem canonicalMembers_eq_foldl (ms done : List (String × Value)) :
    Value.canonicalMembers done ms = (ms.map fun m => (m.1, m.2.canonical)).foldl
      (fun done m => Value.insertMember m.1 m.2 done) done := by
  induction ms generalizing done with
  | nil => rfl
  | cons m ms ih => rw [Value.canonicalMembers, ih, List.map_cons, List.foldl_cons]

/-- Where one of several optional things has the same image as another, so
have the lists with one and the other. -/
theorem mapM_congr_at {α β γ δ : Type} {f : β → Option α} {g : α → γ} {h : List γ → δ} {b b' : β}
    (heq : (f b).map g = (f b').map g) (before behind : List β) :
    ((before ++ b :: behind).mapM f).map (fun as => h (as.map g))
      = ((before ++ b' :: behind).mapM f).map (fun as => h (as.map g)) := by
  rw [List.mapM_append, List.mapM_append, List.mapM_cons, List.mapM_cons]
  cases before.mapM f with
  | none => rfl
  | some as =>
      cases hb : f b with
      | none =>
          rw [hb, Option.map_none, eq_comm, Option.map_eq_none_iff] at heq
          rw [heq]
      | some a =>
          rw [hb, Option.map_some, eq_comm] at heq
          obtain ⟨a', ha', hg⟩ := Option.map_eq_some_iff.mp heq
          rw [ha']
          cases behind.mapM f with
          | none => rfl
          | some cs => simp [hg]

/-- Rearranging changes neither what the value of a tree means nor whether
there is one. -/
theorem Rearranged.canonical_eq {t t' : Tree} (h : Rearranged t t') : ∀ depth,
    (t.value? depth).map Value.canonical = (t'.value? depth).map Value.canonical := by
  induction h with
  | refl t => exact fun depth => rfl
  | trans _ _ ih ih' => exact fun depth => (ih depth).trans (ih' depth)
  | @permuted ms ms' hperm hlast =>
      intro depth
      cases depth with
      | zero => rfl
      | succ depth =>
          have hmembers := congrArg (Option.map Value.object)
            (@memberValues?_permuted depth ms ms' hperm hlast)
          rw [Option.map_map, Option.map_map] at hmembers
          rw [Tree.value?, Tree.value?, Option.map_map, Option.map_map]
          exact hmembers
  | @item before behind t t' _ ih =>
      intro depth
      cases depth with
      | zero => rfl
      | succ depth =>
          have hitems := @mapM_congr_at _ _ _ _ (Tree.value? depth) Value.canonical Value.array t t'
            (ih depth) before behind
          rw [Tree.value?, Tree.value?, Option.map_map, Option.map_map, itemValues?_eq,
            itemValues?_eq]
          simpa only [Function.comp_def, Value.canonical, canonicalItems_eq_map] using hitems
  | @member before behind name t t' _ ih =>
      intro depth
      cases depth with
      | zero => rfl
      | succ depth =>
          have hmember : (memberValue? depth name t).map (fun m => (m.1, m.2.canonical))
              = (memberValue? depth name t').map fun m => (m.1, m.2.canonical) := by
            cases name with
            | none => rfl
            | some n =>
                have hvalue := congrArg (Option.map (Prod.mk n)) (ih depth)
                rw [Option.map_map, Option.map_map] at hvalue
                rw [memberValue?_some, memberValue?_some, Option.map_map, Option.map_map]
                exact hvalue
          have hmembers := @mapM_congr_at _ _ _ _
            (fun m : Option String × Tree => memberValue? depth m.1 m.2)
            (fun m : String × Value => (m.1, m.2.canonical))
            (fun ms => Value.object (ms.foldl (fun done m => Value.insertMember m.1 m.2 done) []))
            (name, t) (name, t') hmember before behind
          rw [Tree.value?, Tree.value?, Option.map_map, Option.map_map, memberValues?_eq,
            memberValues?_eq]
          simpa only [Function.comp_def, Value.canonical, canonicalMembers_eq_foldl] using hmembers

theorem findRev?_of_perm (hperm : ms.Perm ms') (hnames : (ms.map (·.1)).Nodup)
    (name : Option String) : ms.findRev? (·.1 = name) = ms'.findRev? (·.1 = name) := by
  induction hperm with
  | nil => rfl
  | cons m _ ih => rw [findRev?_cons, findRev?_cons, ih (List.nodup_cons.mp hnames).2]
  | swap m m' l =>
      have hne : m'.1 ≠ m.1 := by
        intro heq
        simp [heq] at hnames
      simp only [findRev?_cons, Option.or_assoc]
      by_cases hm : m.1 = name
      · have hm' : m'.1 ≠ name := fun heq => hne (heq.trans hm.symm)
        simp [hm, hm']
      · simp [hm]
  | trans hperm _ ih ih' =>
      exact (ih hnames).trans (ih' ((hperm.map _).nodup_iff.mp hnames))

/-- Without repeats among the names every order will do. -/
theorem Rearranged.of_perm (hnames : (ms.map (·.1)).Nodup) (hperm : ms.Perm ms') :
    Rearranged (.object ms) (.object ms') :=
  .permuted hperm (findRev?_of_perm hperm hnames)

end Rearranging

end AdvisoryGate.Json
