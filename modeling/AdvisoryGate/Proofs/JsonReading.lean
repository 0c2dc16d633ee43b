import AdvisoryGate.Proofs.JsonTokens

/-!
# The reader of JSON takes the texts of the grammar

By the grammar a text has a tree, and a tree may have a value. Here the
reader is shown to give that value, and to refuse the text if there is none
(`parse?_of_denotes`); and every text that it takes is shown to be one by
the grammar (`exists_denotes`). Together: what is read is exactly what some
tree of the text has for a value (`parse?_eq_some_iff`).

Containers are read by one reader of items, whatever the items are. So
there is one lemma about arrays and objects for each direction, with the
reader of an item, the items and what is asked of them as parameters.
-/

namespace AdvisoryGate.Json

/-! ## Spaces -/

section Spaces

variable {sp rest : List Char} {c : Char}

theorem isSpace_iff : isSpace c = true ↔ c ∈ [' ', '\t', '\n', '\r'] := by
  simp [isSpace, or_assoc]

theorem skipSpaces_run (hsp : Spaces sp) (hrest : ∀ c ∈ rest.head?, isSpace c = false) :
    skipSpaces (sp ++ rest) = rest :=
  dropWhile_run (fun c hc => isSpace_iff.mpr (hsp c hc)) hrest

theorem exists_spaces (cs : List Char) : ∃ sp, Spaces sp ∧ cs = sp ++ skipSpaces cs :=
  ⟨cs.takeWhile isSpace, fun _ hc => isSpace_iff.mp (List.mem_takeWhile_imp hc),
    (List.takeWhile_append_dropWhile ..).symm⟩

theorem spaces_nil : Spaces [] := List.forall_mem_nil _

/-- No number goes on behind spaces or in something that is no part of one. -/
theorem ends_spaces (hsp : Spaces sp) (hc : isNumberChar c = false) : Ends (sp ++ c :: rest) := by
  intro d hd
  cases sp with
  | nil =>
      obtain rfl := Option.some.inj hd
      exact hc
  | cons e sp =>
      obtain rfl := Option.some.inj hd
      have hspace := hsp e (List.mem_cons_self ..)
      simp only [List.mem_cons, List.not_mem_nil, or_false] at hspace
      rcases hspace with rfl | rfl | rfl | rfl <;> decide

theorem ends_of_spaces (hsp : Spaces sp) : Ends sp := by
  cases sp with
  | nil => exact fun _ hc => nomatch hc
  | cons c sp =>
      have hrest : Spaces [] := spaces_nil
      refine @ends_spaces [] sp c hrest ?_
      have hspace := hsp c (List.mem_cons_self ..)
      simp only [List.mem_cons, List.not_mem_nil, or_false] at hspace
      rcases hspace with rfl | rfl | rfl | rfl <;> decide

end Spaces

/-! ## Items -/

/-- The reader takes exactly the text, and gives what it stands for, or
refuses it if it stands for nothing. The text starts with something visible
that closes no container. -/
structure Reads {α : Type} (reader : List Char → Option (α × List Char)) (text : List Char)
    (x : Option α) : Prop where
  back : ∀ rest, Ends rest → reader (text ++ rest) = x.map (·, rest)
  start : ∃ c t, text = c :: t ∧ isSpace c = false ∧ c ≠ ']' ∧ c ≠ '\x7d'

section Items

variable {α β : Type} {reader : List Char → Option (α × List Char)} {closing : Char}
  {text : β → List Char} {f : β → Option α} {rest : List Char}

theorem Reads.skipSpaces {w : List Char} {x : Option α} (h : Reads reader w x) {sp : List Char}
    (hsp : Spaces sp) (rest : List Char) : skipSpaces (sp ++ (w ++ rest)) = w ++ rest := by
  obtain ⟨c, t, rfl, hc, -⟩ := h.start
  refine skipSpaces_run hsp fun d hd => ?_
  obtain rfl := Option.some.inj hd
  exact hc

/-- What is asked of a closing bracket. -/
def Closes (closing : Char) : Prop := closing = ']' ∨ closing = '\x7d'

theorem Closes.visible (h : Closes closing) : ∀ r, ∀ c ∈ (closing :: r).head?, isSpace c = false := by
  intro r c hc
  obtain rfl := Option.some.inj hc
  rcases h with rfl | rfl <;> rfl

theorem Closes.isNumberChar (h : Closes closing) : isNumberChar closing = false := by
  rcases h with rfl | rfl <;> decide

theorem row_cons_iff {w row : List Char} {ws : List (List Char)} : Row (w :: ws) row ↔
    ∃ sp sp', Spaces sp ∧ Spaces sp' ∧ (ws = [] ∧ row = sp ++ (w ++ sp')
      ∨ ∃ row', Row ws row' ∧ row = sp ++ (w ++ (sp' ++ ',' :: row'))) := by
  constructor
  · intro h
    cases h with
    | last hsp hsp' => exact ⟨_, _, hsp, hsp', .inl ⟨rfl, rfl⟩⟩
    | more hsp hsp' hrow => exact ⟨_, _, hsp, hsp', .inr ⟨_, hrow, rfl⟩⟩
  · rintro ⟨sp, sp', hsp, hsp', ⟨rfl, rfl⟩ | ⟨row', hrow, rfl⟩⟩
    · exact .last hsp hsp'
    · exact .more hsp hsp' hrow

theorem itemsFrom?_of_row (hclosing : Closes closing) (rest : List Char) : ∀ {items : List β}
    {row : List Char} {fuel : Nat}, Row (items.map text) row →
      (∀ i ∈ items, Reads reader (text i) (f i)) → items.length ≤ fuel →
      itemsFrom? reader closing fuel (row ++ closing :: rest) = (items.mapM f).map (·, rest)
  | [], _, _, hrow, _, _ => nomatch hrow
  | _ :: _, _, 0, _, _, hfuel => absurd hfuel (Nat.not_succ_le_zero _)
  | i :: items, _, fuel + 1, hrow, hreads, hfuel => by
      have hi := hreads i (List.mem_cons_self ..)
      obtain ⟨sp, sp', hsp, hsp', ⟨hnil, rfl⟩ | ⟨row', hrow', rfl⟩⟩ := row_cons_iff.mp hrow
      · obtain rfl := List.map_eq_nil_iff.mp hnil
        have hshape : sp ++ (text i ++ sp') ++ closing :: rest
            = sp ++ (text i ++ (sp' ++ closing :: rest)) := by simp
        rw [hshape, itemsFrom?, hi.skipSpaces hsp,
          hi.back _ (ends_spaces hsp' hclosing.isNumberChar), List.mapM_cons, List.mapM_nil]
        cases f i with
        | none => rfl
        | some x => simp [skipSpaces_run hsp' (hclosing.visible rest)]
      · have ih := itemsFrom?_of_row hclosing rest hrow'
          (fun j hj => hreads j (List.mem_cons_of_mem _ hj)) (Nat.le_of_succ_le_succ hfuel)
        have hne : ',' ≠ closing := by rcases hclosing with rfl | rfl <;> decide
        have hshape : sp ++ (text i ++ (sp' ++ ',' :: row')) ++ closing :: rest
            = sp ++ (text i ++ (sp' ++ ',' :: (row' ++ closing :: rest))) := by simp
        have hcomma : ∀ c ∈ (',' :: (row' ++ closing :: rest)).head?, isSpace c = false := by
          intro c hc
          obtain rfl := Option.some.inj hc
          rfl
        rw [hshape, itemsFrom?, hi.skipSpaces hsp, hi.back _ (ends_spaces hsp' (by decide)),
          List.mapM_cons]
        cases f i with
        | none => rfl
        | some x =>
            simp only [Option.map_some, Option.bind_eq_bind, Option.bind_some,
              skipSpaces_run hsp' hcomma, if_neg hne, if_true, ih]
            cases List.mapM f items <;> rfl

theorem Row.indent {ws : List (List Char)} {row : List Char} (h : Row ws row) {sp : List Char}
    (hsp : Spaces sp) : Row ws (sp ++ row) := by
  have hspaces : ∀ {sp₁ : List Char}, Spaces sp₁ → Spaces (sp ++ sp₁) :=
    fun hsp₁ => List.forall_mem_append.mpr ⟨hsp, hsp₁⟩
  cases h with
  | last hsp₁ hsp' =>
      rw [← List.append_assoc]
      exact .last (hspaces hsp₁) hsp'
  | more hsp₁ hsp' hrow =>
      rw [← List.append_assoc]
      exact .more (hspaces hsp₁) hsp' hrow

theorem Row.length_le {ws : List (List Char)} {row : List Char} (h : Row ws row)
    (hws : ∀ w ∈ ws, w ≠ []) : ws.length ≤ row.length := by
  induction h with
  | last =>
      have hpos := List.length_pos_iff.mpr (hws _ (List.mem_singleton_self _))
      simp only [List.length_append, List.length_singleton]
      omega
  | more _ _ _ ih =>
      have hrest := ih fun w hw => hws w (List.mem_cons_of_mem _ hw)
      simp only [List.length_append, List.length_cons]
      omega

/-- What stands between the brackets is read as its items, if all of them
stand for something. -/
theorem items?_of_inside (hclosing : Closes closing) {items : List β} {inside : List Char}
    (hinside : Inside (items.map text) inside)
    (hreads : ∀ i ∈ items, Reads reader (text i) (f i)) (rest : List Char) :
    items? reader closing (inside ++ closing :: rest) = (items.mapM f).map (·, rest) := by
  cases items with
  | nil =>
      cases hinside with
      | none hsp =>
          rw [items?, skipSpaces_run hsp (hclosing.visible rest)]
          exact if_pos rfl
      | row hrow => exact nomatch hrow
  | cons i items =>
      cases hinside with
      | row hrow =>
          have hi := hreads i (List.mem_cons_self ..)
          obtain ⟨sp, sp', hsp, hsp', hcases⟩ := row_cons_iff.mp hrow
          -- The spaces in front are skipped before the reader of items starts.
          obtain ⟨row', hrow', rfl, w, rfl⟩ : ∃ row', Row ((i :: items).map text) row'
              ∧ inside = sp ++ row' ∧ ∃ w, row' = text i ++ w := by
            rcases hcases with ⟨hnil, rfl⟩ | ⟨row', hrow', rfl⟩
            · exact ⟨_, row_cons_iff.mpr ⟨[], sp', spaces_nil, hsp', .inl ⟨hnil, rfl⟩⟩, rfl, _, rfl⟩
            · exact ⟨_, row_cons_iff.mpr ⟨[], sp', spaces_nil, hsp', .inr ⟨row', hrow', rfl⟩⟩,
                rfl, _, rfl⟩
          obtain ⟨c, t, htext, -, harray, hobject⟩ := hi.start
          have hopen : c ≠ closing := by rcases hclosing with rfl | rfl <;> assumption
          have hlength := hrow'.length_le (by
            intro v hv
            obtain ⟨j, hj, rfl⟩ := List.mem_map.mp hv
            obtain ⟨d, u, hd, -⟩ := (hreads j hj).start
            rw [hd]
            exact List.cons_ne_nil _ _)
          have hfuel : (i :: items).length ≤ (t ++ (w ++ closing :: rest)).length + 1 := by
            rw [List.length_map, htext] at hlength
            simp only [List.length_append, List.length_cons] at hlength ⊢
            omega
          have hfrom := itemsFrom?_of_row hclosing rest hrow' hreads hfuel
          have hshape : sp ++ (text i ++ w) ++ closing :: rest
              = sp ++ (text i ++ (w ++ closing :: rest)) := by simp
          rw [htext, List.append_assoc, List.cons_append] at hfrom
          rw [items?, hshape, hi.skipSpaces hsp, htext, List.cons_append]
          exact (if_neg hopen).trans hfrom

/-- Whatever the reader takes is the text of an item, which stands for what
is read. -/
def TakesItems (reader : List Char → Option (α × List Char)) (text : β → List Char)
    (f : β → Option α) (Good : β → Prop) : Prop :=
  ∀ cs x rest, reader cs = some (x, rest) → ∃ i, Good i ∧ f i = some x ∧ cs = text i ++ rest

theorem exists_row {Good : β → Prop} (hitem : TakesItems reader text f Good) {fuel : Nat}
    {cs : List Char} {xs : List α} (h : itemsFrom? reader closing fuel cs = some (xs, rest)) :
    ∃ (items : List β) (row : List Char), Row (items.map text) row
      ∧ (∀ i ∈ items, Good i) ∧ items.mapM f = some xs ∧ cs = row ++ closing :: rest := by
  induction fuel generalizing cs xs with
  | zero => cases h
  | succ fuel ih =>
      obtain ⟨⟨x, r⟩, hx, hr⟩ := Option.bind_eq_some_iff.mp h
      obtain ⟨i, hi, hf, hcs⟩ := hitem _ _ _ hx
      obtain ⟨sp, hsp, hskip⟩ := exists_spaces cs
      obtain ⟨sp', hsp', hskip'⟩ := exists_spaces r
      dsimp only at hr
      split at hr
      · cases hr
      rename_i c r' hhead
      rw [hhead] at hskip'
      split at hr
      · rename_i hc
        obtain ⟨rfl, rfl⟩ := Prod.mk.inj (Option.some.inj hr)
        refine ⟨[i], _, .last hsp hsp', List.forall_mem_singleton.mpr hi, ?_, ?_⟩
        · rw [List.mapM_cons, List.mapM_nil, hf]
          rfl
        · rw [hskip, hcs, hskip', hc]
          simp
      split at hr
      · rename_i hc
        obtain ⟨⟨xs', rest'⟩, hxs, heq⟩ := Option.bind_eq_some_iff.mp hr
        obtain ⟨rfl, rfl⟩ := Prod.mk.inj (Option.some.inj heq)
        obtain ⟨items, row, hrow, hitems, hmap, hr'⟩ := ih hxs
        refine ⟨i :: items, _, .more hsp hsp' hrow, List.forall_mem_cons.mpr ⟨hi, hitems⟩, ?_, ?_⟩
        · rw [List.mapM_cons, hf, hmap]
          rfl
        · rw [hskip, hcs, hskip', hc, hr']
          simp
      · cases hr

theorem exists_inside {Good : β → Prop} (hitem : TakesItems reader text f Good)
    {cs : List Char} {xs : List α} (h : items? reader closing cs = some (xs, rest)) :
    ∃ (items : List β) (inside : List Char), Inside (items.map text) inside
      ∧ (∀ i ∈ items, Good i) ∧ items.mapM f = some xs ∧ cs = inside ++ closing :: rest := by
  obtain ⟨sp, hsp, hskip⟩ := exists_spaces cs
  unfold items? at h
  split at h
  · cases h
  · rename_i c r hhead
    rw [hhead] at hskip
    split at h
    · rename_i hc
      obtain ⟨rfl, rfl⟩ := Prod.mk.inj (Option.some.inj h)
      exact ⟨[], sp, .none hsp, List.forall_mem_nil _, List.mapM_nil, by rw [hskip, hc]⟩
    · obtain ⟨items, row, hrow, hitems, hmap, hr⟩ := exists_row hitem h
      exact ⟨items, sp ++ row, .row (hrow.indent hsp), hitems, hmap, by rw [hskip, hr]; simp⟩

end Items

/-! ## Values -/

/-- The value of a member: it needs a name and a value. -/
def memberValue? (depth : Nat) (name : Option String) (t : Tree) : Option (String × Value) := do
  return (← name, ← t.value? depth)

theorem memberValue?_some (depth : Nat) (name : String) (t : Tree) :
    memberValue? depth (some name) t = (t.value? depth).map (Prod.mk name) := by
  rw [memberValue?]
  cases t.value? depth <;> rfl

theorem itemValues?_eq (depth : Nat) (ts : List Tree) :
    itemValues? depth ts = ts.mapM (Tree.value? depth) := by
  induction ts with
  | nil => rfl
  | cons t ts ih => rw [itemValues?, List.mapM_cons, ih]

theorem memberValues?_eq (depth : Nat) (ms : List (Option String × Tree)) :
    memberValues? depth ms = ms.mapM fun m => memberValue? depth m.1 m.2 := by
  induction ms with
  | nil => rfl
  | cons m ms ih =>
      obtain ⟨name, t⟩ := m
      rw [memberValues?, List.mapM_cons, ih, memberValue?]
      cases name <;> cases t.value? depth <;> rfl

theorem itemValues?_trees (depth : Nat) (items : List Item) :
    itemValues? depth (items.map (·.tree)) = items.mapM fun i => i.tree.value? depth := by
  rw [itemValues?_eq, List.mapM_map]
  rfl

theorem memberValues?_trees (depth : Nat) (members : List Member) :
    memberValues? depth (members.map fun m => (m.name, m.tree))
      = members.mapM fun m => memberValue? depth m.name m.tree := by
  rw [memberValues?_eq, List.mapM_map]
  rfl

/-- A value that is none of the containers is read the same way at every
depth. -/
theorem value?_scalar {depth : Nat} {c : Char} {r : List Char} (harray : c ≠ '[')
    (hobject : c ≠ '\x7b') : value? depth (c :: r) = scalar? (c :: r) := by
  cases depth with
  | zero => rfl
  | succ depth =>
      rw [value?]
      · exact fun _ h => harray (List.cons.inj h).1
      · exact fun _ h => hobject (List.cons.inj h).1

section Values

variable {depth : Nat} {t : Tree} {v : Value} {w cs rest : List Char}

theorem Reads.scalar {c : Char} {x : Option Value} (hw : w = c :: cs) (hvisible : isSpace c = false)
    (hc : c ∉ [']', '\x7d', '[', '\x7b'])
    (hread : ∀ rest, Ends rest → scalar? (w ++ rest) = x.map (·, rest)) :
    Reads (value? depth) w x := by
  simp only [List.mem_cons, List.not_mem_nil, or_false, not_or] at hc
  refine ⟨fun rest hrest => ?_, c, cs, hw, hvisible, hc.1, hc.2.1⟩
  rw [← hread rest hrest, hw]
  exact value?_scalar hc.2.2.1 hc.2.2.2

theorem ne_of_numberStart {c d : Char} (hc : c = '-' ∨ isDigit c = true)
    (hd : isDigit d = false) (hne : d ≠ '-') : c ≠ d := by
  rintro rfl
  rcases hc with rfl | hc
  · exact hne rfl
  · rw [hd] at hc
    cases hc

theorem scalar?_number {c : Char} (hc : c = '-' ∨ isDigit c = true) :
    scalar? (c :: cs) = number? (c :: cs) := by
  have hnot : ∀ {d r r'}, c :: r = d :: r' → isDigit d = false → d ≠ '-' → False :=
    fun heq hd hne => ne_of_numberStart hc hd hne (List.cons.inj heq).1
  unfold scalar?
  split
  · exact absurd ‹_› fun heq => hnot heq (by decide) (by decide)
  · exact absurd ‹_› fun heq => hnot heq (by decide) (by decide)
  · exact absurd ‹_› fun heq => hnot heq (by decide) (by decide)
  · exact absurd ‹_› fun heq => hnot heq (by decide) (by decide)
  · rfl

theorem NumeralText.reads {n : Numeral} (h : NumeralText n w) :
    Reads (value? depth) w n.value? := by
  obtain ⟨c, cs, hw, hc⟩ := h.cons
  have hvisible : isSpace c = false := by
    rw [Bool.eq_false_iff, Ne, isSpace_iff]
    intro hspace
    simp only [List.mem_cons, List.not_mem_nil, or_false] at hspace
    rcases hspace with rfl | rfl | rfl | rfl <;>
      exact ne_of_numberStart hc (by decide) (by decide) rfl
  have hopen : c ∉ [']', '\x7d', '[', '\x7b'] := by
    intro hbracket
    simp only [List.mem_cons, List.not_mem_nil, or_false] at hbracket
    rcases hbracket with rfl | rfl | rfl | rfl <;>
      exact ne_of_numberStart hc (by decide) (by decide) rfl
  refine .scalar hw hvisible hopen fun rest hrest => ?_
  rw [← number?_of_numeralText h hrest, hw]
  exact scalar?_number hc

theorem StringText.reads {s : Option String} (h : StringText s w) :
    Reads (value? depth) w (s.map .string) := by
  have hread := string?_of_stringText h
  obtain ⟨ps, body, -, -, hw⟩ := h
  refine .scalar hw (by decide) (by decide) fun rest _ => ?_
  have hstring := hread rest
  rw [hw, List.cons_append] at hstring ⊢
  show (string? _).map _ = _
  rw [hstring]
  cases s <;> rfl

theorem MemberText.reads {m : Member}
    (hvalue : Reads (value? depth) m.value (m.tree.value? depth))
    (h : MemberText m.name m.value m.text) :
    Reads (member? (value? depth)) m.text (memberValue? depth m.name m.tree) := by
  obtain ⟨key, sp, sp', hkey, hsp, hsp', htext⟩ := h
  have hread := string?_of_stringText hkey
  obtain ⟨ps, body, -, -, hquoted⟩ := hkey
  refine ⟨fun rest hrest => ?_, '"', _, by rw [htext, hquoted]; rfl, by decide, by decide,
    by decide⟩
  have hshape : m.text ++ rest = key ++ (sp ++ ':' :: (sp' ++ (m.value ++ rest))) := by
    rw [htext]
    simp
  have hcolon : ∀ c ∈ (':' :: (sp' ++ (m.value ++ rest))).head?, isSpace c = false := by
    intro c hc
    obtain rfl := Option.some.inj hc
    rfl
  rw [hshape, member?, hread, memberValue?]
  cases m.name with
  | none => rfl
  | some name =>
      simp only [Option.map_some, Option.bind_eq_bind, Option.bind_some,
        skipSpaces_run hsp hcolon, hvalue.skipSpaces hsp', hvalue.back rest hrest]
      cases m.tree.value? depth <;> rfl

/-- A text of a tree is read as its value, whatever comes behind. -/
theorem Written.reads (h : Written t w) : ∀ depth, Reads (value? depth) w (t.value? depth) := by
  induction h with
  | null => exact fun depth => .scalar rfl (by decide) (by decide) fun _ _ => rfl
  | true => exact fun depth => .scalar rfl (by decide) (by decide) fun _ _ => rfl
  | false => exact fun depth => .scalar rfl (by decide) (by decide) fun _ _ => rfl
  | number hn => exact fun depth => hn.reads
  | string hs => exact fun depth => hs.reads
  | @array items inside _ hinside ih =>
      intro depth
      refine ⟨fun rest hrest => ?_, '[', _, rfl, by decide, by decide, by decide⟩
      rw [List.cons_append, List.append_assoc, List.singleton_append]
      cases depth with
      | zero => rfl
      | succ depth =>
          have hitems := items?_of_inside (.inl rfl) hinside (fun i hi => ih i hi depth) rest
          rw [value?, hitems, Tree.value?, itemValues?_trees]
          cases items.mapM fun i => i.tree.value? depth <;> rfl
  | @object members inside _ hmember hinside ih =>
      intro depth
      refine ⟨fun rest hrest => ?_, '\x7b', _, rfl, by decide, by decide, by decide⟩
      rw [List.cons_append, List.append_assoc, List.singleton_append]
      cases depth with
      | zero => rfl
      | succ depth =>
          have hmembers := items?_of_inside (.inr rfl) hinside
            (fun m hm => (hmember m hm).reads (ih m hm depth)) rest
          rw [value?, hmembers, Tree.value?, memberValues?_trees]
          cases members.mapM fun m => memberValue? depth m.name m.tree <;> rfl

theorem exists_written_scalar (h : scalar? cs = some (v, rest)) :
    ∃ t w, Written t w ∧ (∀ depth, t.value? depth = some v) ∧ cs = w ++ rest := by
  unfold scalar? at h
  split at h
  · obtain ⟨rfl, rfl⟩ := Prod.mk.inj (Option.some.inj h)
    exact ⟨_, _, .null, fun depth => rfl, rfl⟩
  · obtain ⟨rfl, rfl⟩ := Prod.mk.inj (Option.some.inj h)
    exact ⟨_, _, .true, fun depth => rfl, rfl⟩
  · obtain ⟨rfl, rfl⟩ := Prod.mk.inj (Option.some.inj h)
    exact ⟨_, _, .false, fun depth => rfl, rfl⟩
  · obtain ⟨⟨s, rest'⟩, hs, heq⟩ := Option.map_eq_some_iff.mp h
    obtain ⟨rfl, rfl⟩ := Prod.mk.inj heq
    obtain ⟨w, hw, htext⟩ := exists_stringText hs
    exact ⟨_, _, .string htext, fun depth => rfl, hw⟩
  · obtain ⟨n, w, htext, hvalue, hw⟩ := exists_numeralText h
    exact ⟨_, _, .number htext, fun depth => hvalue, hw⟩

/-- Whatever is read as a member has a name and a value. -/
theorem exists_member {m : String × Value}
    (hvalue : ∀ {cs v rest}, value? depth cs = some (v, rest) →
      ∃ t w, Written t w ∧ t.value? depth = some v ∧ cs = w ++ rest)
    (h : member? (value? depth) cs = some (m, rest)) : ∃ m' : Member,
      (Written m'.tree m'.value ∧ MemberText m'.name m'.value m'.text)
        ∧ memberValue? depth m'.name m'.tree = some m ∧ cs = m'.text ++ rest := by
  obtain ⟨⟨name, r⟩, hname, hr⟩ := Option.bind_eq_some_iff.mp h
  obtain ⟨key, rfl, hkey⟩ := exists_stringText hname
  obtain ⟨sp, hsp, hskip⟩ := exists_spaces r
  dsimp only at hr
  split at hr
  · rename_i r' hcolon
    obtain ⟨⟨v, rest'⟩, hv, heq⟩ := Option.bind_eq_some_iff.mp hr
    obtain ⟨rfl, rfl⟩ := Prod.mk.inj (Option.some.inj heq)
    obtain ⟨sp', hsp', hskip'⟩ := exists_spaces r'
    obtain ⟨t, w, hw, ht, hr'⟩ := hvalue hv
    refine ⟨⟨some name, t, w, key ++ (sp ++ ':' :: (sp' ++ w))⟩,
      ⟨hw, key, sp, sp', hkey, hsp, hsp', rfl⟩, ?_, ?_⟩
    · rw [memberValue?, ht]
      rfl
    · rw [hskip, hcolon, hskip', hr']
      simp
  · cases hr

/-- Whatever is read as a value is a text of some tree that has it. -/
theorem exists_written (h : value? depth cs = some (v, rest)) :
    ∃ t w, Written t w ∧ t.value? depth = some v ∧ cs = w ++ rest := by
  induction depth generalizing cs v rest with
  | zero =>
      obtain ⟨t, w, hw, ht, hcs⟩ := exists_written_scalar h
      exact ⟨t, w, hw, ht 0, hcs⟩
  | succ depth ih =>
      unfold value? at h
      split at h
      · rename_i r
        obtain ⟨⟨vs, rest'⟩, hvs, heq⟩ := Option.map_eq_some_iff.mp h
        obtain ⟨rfl, rfl⟩ := Prod.mk.inj heq
        have hitem : TakesItems (value? depth) Item.text (fun i => i.tree.value? depth)
            fun i => Written i.tree i.text := by
          intro cs v rest hv
          obtain ⟨t, w, hw, ht, hcs⟩ := ih hv
          exact ⟨⟨t, w⟩, hw, ht, hcs⟩
        obtain ⟨items, inside, hinside, hitems, hmap, rfl⟩ := exists_inside hitem hvs
        refine ⟨_, _, .array hitems hinside, ?_, by simp⟩
        rw [Tree.value?, itemValues?_trees, hmap]
        rfl
      · rename_i r
        obtain ⟨⟨ms, rest'⟩, hms, heq⟩ := Option.map_eq_some_iff.mp h
        obtain ⟨rfl, rfl⟩ := Prod.mk.inj heq
        obtain ⟨members, inside, hinside, hmembers, hmap, rfl⟩ :=
          exists_inside (fun cs m rest hm => exists_member ih hm) hms
        refine ⟨_, _, .object (fun m hm => (hmembers m hm).1) (fun m hm => (hmembers m hm).2)
          hinside, ?_, by simp⟩
        rw [Tree.value?, memberValues?_trees, hmap]
        rfl
      · obtain ⟨t, w, hw, ht, hcs⟩ := exists_written_scalar h
        exact ⟨t, w, hw, ht (depth + 1), hcs⟩

end Values

/-! ## Texts -/

section Texts

variable {text : List Char} {t : Tree} {v : Value}

/-- **What a text of a tree is read as**: the value of the tree, if it has
one. -/
theorem parse?_of_denotes (h : Denotes text t) : parse? text = t.value? maxDepth := by
  obtain ⟨sp, w, sp', hsp, hw, hsp', rfl⟩ := h
  have hreads := hw.reads maxDepth
  rw [parse?, hreads.skipSpaces hsp, hreads.back _ (ends_of_spaces hsp')]
  have hskip := @skipSpaces_run sp' [] hsp' fun _ hc => nomatch hc
  rw [List.append_nil] at hskip
  cases t.value? maxDepth with
  | none => rfl
  | some v => simp [hskip]

theorem exists_denotes (h : parse? text = some v) :
    ∃ t, Denotes text t ∧ t.value? maxDepth = some v := by
  unfold parse? at h
  split at h
  · rename_i v' r hread
    split at h
    · rename_i hend
      obtain rfl := Option.some.inj h
      obtain ⟨t, w, hw, ht, hcs⟩ := exists_written hread
      obtain ⟨sp, hsp, hskip⟩ := exists_spaces text
      obtain ⟨sp', hsp', hskip'⟩ := exists_spaces r
      rw [List.isEmpty_iff.mp hend, List.append_nil] at hskip'
      exact ⟨t, ⟨sp, w, sp', hsp, hw, hsp', by rw [← hskip', ← hcs]; exact hskip⟩, ht⟩
    · cases h
  · cases h

/-- The texts that are read are those of a tree with a value. -/
theorem parse?_eq_some_iff :
    parse? text = some v ↔ ∃ t, Denotes text t ∧ t.value? maxDepth = some v := by
  constructor
  · exact exists_denotes
  · rintro ⟨t, ht, hvalue⟩
    rw [parse?_of_denotes ht, hvalue]

end Texts

end AdvisoryGate.Json
