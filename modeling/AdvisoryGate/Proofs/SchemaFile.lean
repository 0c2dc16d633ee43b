import AdvisoryGate.Maintenance
import AdvisoryGate.Proofs.DiskChanges
import AdvisoryGate.Proofs.JsonLayout

/-!
# The schema file stays sound

Any calls of the maintenance program, one after the other, from any disk,
each of them with things of its own in its way. What they can do to the disk
is one relation, `OnlySchema`, which one call preserves (`onlySchema_call`)
and so do all of them (`onlySchema_after`): nothing but the folders above the
schema file is made, and in place of the schema file stands what stood there
or the text that is written there. Only a write that breaks off leaves a
part of this text.

Once the text is there, nothing changes any more, unless a later write
breaks off (`after_of_written`): the check accepts it if it can read it,
since the layout of the schema reads back as the schema, and writing it again
puts the same file where it is.

`schema_file_stays_sound` collects all of it. Nothing is assumed of the
disk: a file can stand where the folder should be, or a folder where the
file should be. Two of these things go against what one might expect of a
call that fails, as `schema_file_not_kept` shows.
-/

namespace AdvisoryGate.Maintenance

open Disk (OnlyDirectories modeOf)

/-- The schema file as it is written. -/
def schemaBytes : ByteArray := Config.Schema.text.toUTF8

theorem toUTF8_schemaText : Config.Schema.text.toUTF8 = schemaBytes := rfl

-- The text is not to be computed where two disks are compared.
attribute [irreducible] schemaBytes

/-- What the schema file holds, if there is one that can be read. -/
def schemaContent? (d : Disk) (directory : String) : Option ByteArray :=
  (d.readBytes (schemaPath directory)).toOption

/-- The disk behind some calls, given with what stands in the way of each. -/
def after (home : Option String) (d : Disk) (calls : List (Obstacles × List String)) : Disk :=
  calls.foldl (fun d c => (call (d.under c.1) home c.2).1.under d.obstacles) d

/-- The schema file as it is written, or as far as it got to be. -/
inductive IsPart : ByteArray → Prop
  | whole : IsPart schemaBytes
  | cut {n : Nat} : n < schemaBytes.size → IsPart (schemaBytes.extract 0 n)

/-- What can become of an entry on the way to another disk: it is kept; or
nothing was there, and a folder for the schema file has been made; or it
is the schema file, written anew or for the first time. Where the paths lead
does not depend on what is refused. -/
inductive Change (held : ByteArray → Prop) (directory : String) (d' : Disk) (p : List String) :
    Option Entry → Option Entry → Prop
  | kept (e : Option Entry) : Change held directory d' p e e
  | made {above : String} : above ∈ Path.ancestors (schemaFolder directory) →
      (d'.under .none).placeOf above = .ok p →
        Change held directory d' p none (some .directory)
  | written {e : Option Entry} {content : ByteArray} : e ≠ some .directory →
      (d'.under .none).placeOf (schemaPath directory) = .ok p → held content →
        Change held directory d' p e (some (.file content (modeOf e)))

/-- Nothing has changed but the folders above the schema file and this file,
and it holds one of these contents if it has. -/
structure OnlySchema (held : ByteArray → Prop) (directory : String) (d d' : Disk) : Prop where
  here : d'.here = d.here
  change : ∀ p, Change held directory d' p (d.get? p) (d'.get? p)

/-- Every file is what it was. -/
def KeepsFiles (d d' : Disk) : Prop := ∀ p content executable,
  d.get? p = some (.file content executable) → d'.get? p = some (.file content executable)

/-- The write of the schema file broke off for want of room: the file holds
what had been written by then, and every other file is what it was. -/
structure BrokeOff (directory : String) (d d' : Disk) (p : List String) : Prop where
  place : d'.placeOf (schemaPath directory) = .ok p
  cut : ∃ room cause executable, d.obstacles.room? p = some (room, cause)
    ∧ room < schemaBytes.size
    ∧ d'.get? p = some (.file (schemaBytes.extract 0 room) executable)
  others : ∀ q content executable, q ≠ p → d.get? q = some (.file content executable) →
    d'.get? q = some (.file content executable)

/-- If the call writes the schema, this write does not break off. -/
def Unbroken (c : Obstacles × List String) : Prop :=
  c.2.head? = some "emit-schemas" → c.1.HasRoom schemaBytes.size

/-- As long as no write breaks off, nothing changes any more. Then the check
passes if it can read the schema file, and where nothing is refused it
passes and writing the schema again succeeds. -/
def Settled (home : Option String) (d : Disk) : Prop :=
  ∀ calls : List (Obstacles × List String), (∀ c ∈ calls, Unbroken c) →
    after home d calls = d
      ∧ ∀ (o : Obstacles) (args : List String),
        (args.head? = some "check-schemas" ∨ args.head? = some "validate-schemas" →
            schemaContent? (d.under o) (home.getD ".") ≠ none
              ∨ (∀ a p, o.refusal? a p = none) →
            call (d.under o) home args = (d.under o, success "Schema is up to date.\n"))
          ∧ (args.head? = some "emit-schemas" → o.HasRoom schemaBytes.size →
            (call (d.under o) home args).1 = d.under o
              ∧ ((∀ a p, o.refusal? a p = none) →
                (call (d.under o) home args).2.exitCode = 0))

/-- What a single call does to the disk it starts from. -/
structure SoundCall (home : Option String) (d : Disk) (args : List String) : Prop where
  onlySchema : OnlySchema IsPart (home.getD ".") d (call d home args).1
  others : args.head? ≠ some "emit-schemas" → (call d home args).1 = d
  failed : args.head? = some "emit-schemas" → (call d home args).2.exitCode ≠ 0 →
    KeepsFiles d (call d home args).1
      ∨ ∃ p, BrokeOff (home.getD ".") d (call d home args).1 p
  written : args.head? = some "emit-schemas" → (call d home args).2.exitCode = 0 →
    Settled home (call d home args).1

variable {held : ByteArray → Prop} {directory : String} {d d' : Disk}

/-! ## Changes, one after the other -/

theorem OnlySchema.refl (held : ByteArray → Prop) (directory : String) (d : Disk) :
    OnlySchema held directory d d := ⟨rfl, fun _ => .kept _⟩

/-- What stands in the way is no part of the change. -/
theorem Change.under {p : List String} {e e' : Option Entry}
    (h : Change held directory d' p e e') (o : Obstacles) :
    Change held directory (d'.under o) p e e' := by
  cases h with
  | kept => exact .kept _
  | made habove hplace => exact .made habove hplace
  | written hne hplace hheld => exact .written hne hplace hheld

theorem OnlySchema.under (h : OnlySchema held directory d d') (o o' : Obstacles) :
    OnlySchema held directory (d.under o) (d'.under o') :=
  ⟨h.here, fun p => (h.change p).under o'⟩

theorem Change.stays {p : List String} {e e' : Option Entry}
    (h : Change held directory d' p e e') (he : e = some .directory) : e' = some .directory := by
  cases h with
  | kept => exact he
  | made => rfl
  | written hne => exact absurd he hne

theorem OnlySchema.grows (h : OnlySchema held directory d d') :
    (d.under .none).Grows (d'.under .none) :=
  ⟨h.here, fun p hp => (h.change p).stays hp, fun _ _ hfree => hfree⟩

theorem Change.of_grows {p : List String} {e e' : Option Entry} {d'' : Disk}
    (h : Change held directory d' p e e') (hgrows : (d'.under .none).Grows (d''.under .none)) :
    Change held directory d'' p e e' := by
  cases h with
  | kept => exact .kept _
  | made habove hplace => exact .made habove (Disk.placeOf_of_grows hgrows hplace)
  | written hne hplace hheld =>
      exact .written hne (Disk.placeOf_of_grows hgrows hplace) hheld

theorem Change.trans {p : List String} {e e' e'' : Option Entry}
    (h : Change held directory d' p e e') (h' : Change held directory d' p e' e'') :
    Change held directory d' p e e'' := by
  cases h with
  | kept => exact h'
  | made habove hplace =>
      cases h' with
      | kept => exact .made habove hplace
      | written hne => exact absurd rfl hne
  | written hne hplace hheld =>
      cases h' with
      | kept => exact .written hne hplace hheld
      | written _ _ hheld' => exact .written hne hplace hheld'

theorem OnlySchema.trans {d₁ d₂ d₃ : Disk} (h : OnlySchema held directory d₁ d₂)
    (h' : OnlySchema held directory d₂ d₃) : OnlySchema held directory d₁ d₃ :=
  ⟨h'.here.trans h.here, fun p => ((h.change p).of_grows h'.grows).trans (h'.change p)⟩

theorem onlySchema_of_onlyDirectories
    (h : OnlyDirectories (Path.ancestors (schemaFolder directory)) d d') :
    OnlySchema held directory d d' := by
  refine ⟨h.here, fun p => ?_⟩
  rcases h.made p with heq | ⟨hnone, hmade, above, habove, hplace⟩
  · rw [heq]
    exact .kept _
  · rw [hnone, hmade]
    exact .made habove (Disk.placeOf_unhindered hplace)

theorem onlySchema_put {p : List String} {content : ByteArray}
    (hplace : d.placeOf (schemaPath directory) = .ok p) (hne : d.get? p ≠ some .directory)
    (hheld : held content) :
    OnlySchema held directory d (d.put p (.file content (modeOf (d.get? p)))) := by
  have hstill : (d.put p (.file content (modeOf (d.get? p)))).placeOf (schemaPath directory)
      = .ok p := Disk.placeOf_of_grows (Disk.grows_put hne _) hplace
  refine ⟨rfl, fun q => ?_⟩
  by_cases hq : q = p
  · rw [hq, Disk.get?_put_self]
    exact .written hne (Disk.placeOf_unhindered hstill) hheld
  · rw [Disk.get?_put_of_ne hq]
    exact .kept _

/-! ## Writing the schema -/

theorem getLast?_schemaFolder (directory : String) :
    (schemaFolder directory).toList.getLast? = some 's' := by
  rw [schemaFolder, Path.join]
  split <;> simp [String.toList_append]

theorem below_schemaPath (directory : String) :
    Path.Below (schemaFolder directory) (schemaPath directory) := by
  have hlast := getLast?_schemaFolder directory
  have hne : schemaFolder directory ≠ "" := by
    intro hempty
    rw [hempty] at hlast
    cases hlast
  refine ⟨hne, schemaFile, ?_⟩
  rw [schemaPath, Path.join, if_neg]
  rw [hlast]
  simp [hne]

theorem schemaContent?_eq_some_iff {content : ByteArray} :
    schemaContent? d directory = some content ↔ ∃ p executable,
      d.placeOf (schemaPath directory) = .ok p ∧ d.see p = .ok (.file content executable)
        ∧ d.obstacles.refusal? .read p = none := by
  rw [schemaContent?, ← Disk.readBytes_ok_iff]
  cases d.readBytes (schemaPath directory) <;> simp [Except.toOption]

/-- What has been put in place of the schema file can be read if nothing is
in the way. -/
theorem schemaContent?_put {p : List String} (hplace : d.placeOf (schemaPath directory) = .ok p)
    (hne : d.get? p ≠ some .directory) (content : ByteArray) (executable : Bool) :
    schemaContent? ((d.put p (.file content executable)).under .none) directory
      = some content := by
  have hstill := Disk.placeOf_of_grows (Disk.grows_put hne (.file content executable)) hplace
  refine schemaContent?_eq_some_iff.mpr ⟨p, executable, Disk.placeOf_unhindered hstill, ?_, rfl⟩
  exact Disk.see_ok_iff.mpr ⟨rfl, Disk.get?_put_self ..⟩

/-- What writing the schema comes to. A folder could not be made, or the file
could not be opened; or all folders are there and the file is opened, and
then the write can break off. -/
inductive Emits (directory : String) (d : Disk) : Disk × Report → Prop
  | refused {d' : Disk} (f : Failure) :
      OnlyDirectories (Path.ancestors (schemaFolder directory)) d d' →
        Emits directory d (d', failure f)
  | cut {d' : Disk} {p : List String} {room : Nat} {cause : SystemError} (f : Failure) :
      OnlyDirectories (Path.ancestors (schemaFolder directory)) d d' →
      d'.placeOf (schemaPath directory) = .ok p → d'.get? p ≠ some .directory →
      d.obstacles.refusal? .write p = none → d.obstacles.room? p = some (room, cause) →
      room < schemaBytes.size →
        Emits directory d
          (d'.put p (.file (schemaBytes.extract 0 room) (modeOf (d'.get? p))), failure f)
  | written {d' : Disk} {p : List String} :
      OnlyDirectories (Path.ancestors (schemaFolder directory)) d d' →
      d'.placeOf (schemaPath directory) = .ok p → d'.get? p ≠ some .directory →
        Emits directory d (d'.put p (.file schemaBytes (modeOf (d'.get? p))),
          success ("Wrote " ++ schemaPath directory ++ "\n"))

theorem emits_emitSchemas (directory : String) (d : Disk) :
    Emits directory d (emitSchemas d directory) := by
  have hdirectories := Disk.onlyDirectories_makeDirectories d (schemaFolder directory)
  simp only [emitSchemas, toUTF8_schemaText]
  generalize hmake : d.makeDirectories (schemaFolder directory) = made at hdirectories
  obtain ⟨d', e | _⟩ := made
  · exact .refused _ hdirectories
  · rcases Disk.write_cases d' (schemaPath directory) schemaBytes with
      ⟨e, hwrite⟩ | ⟨p, hplace, hne, hfree, hwrite⟩
    · simp only [hwrite]
      exact .refused _ hdirectories
    · simp only [hwrite]
      rw [hdirectories.obstacles] at hfree
      rcases Obstacles.fill_cases d'.obstacles p schemaBytes with
        hfill | ⟨room, cause, hroom, hsize, hfill⟩
      · rw [hfill]
        exact .written hdirectories hplace hne
      · rw [hfill]
        rw [hdirectories.obstacles] at hroom
        exact .cut _ hdirectories hplace hne hfree hroom hsize

/-- On a device that is too small the schema file is opened and then cut
short. -/
theorem emitSchemas_of_limit {p : List String} {room : Nat} {cause : SystemError}
    (hplace : d.placeOf (schemaPath directory) = .ok p) (hne : d.get? p ≠ some .directory)
    (hfree : d.obstacles.refusal? .write p = none)
    (hroom : d.obstacles.room? p = some (room, cause)) (hsize : room < schemaBytes.size) :
    emitSchemas d directory
      = (d.put p (.file (schemaBytes.extract 0 room) (modeOf (d.get? p))),
        failure (failed ["Failed to write schema to " ++ schemaPath directory, cause.message])) := by
  have hfolder := Disk.isDirectory_of_placeOf_below (below_schemaPath directory) hplace
  have hfill : d.obstacles.fill p schemaBytes = (schemaBytes.extract 0 room, .error cause) := by
    rw [Obstacles.fill, hroom]
    exact if_pos hsize
  have hwrite := @Disk.write_of_placeOf d _ p schemaBytes hplace hne hfree
  rw [hfill] at hwrite
  simp only [emitSchemas, toUTF8_schemaText, Disk.makeDirectories_of_isDirectory hfolder, hwrite]

section Emits

variable {answer : Disk × Report}

theorem Emits.onlySchema (h : Emits directory d answer) (hwhole : held schemaBytes)
    (hcut : ∀ p room cause, d.obstacles.refusal? .write p = none →
      d.obstacles.room? p = some (room, cause) → room < schemaBytes.size →
        held (schemaBytes.extract 0 room)) :
    OnlySchema held directory d answer.1 := by
  cases h with
  | refused f hdirectories => exact onlySchema_of_onlyDirectories hdirectories
  | cut f hdirectories hplace hne hfree hroom hsize =>
      exact (onlySchema_of_onlyDirectories hdirectories).trans
        (onlySchema_put hplace hne (hcut _ _ _ hfree hroom hsize))
  | written hdirectories hplace hne =>
      exact (onlySchema_of_onlyDirectories hdirectories).trans
        (onlySchema_put hplace hne hwhole)

theorem Emits.keepsFiles_or_brokeOff (h : Emits directory d answer)
    (hexit : answer.2.exitCode ≠ 0) :
    KeepsFiles d answer.1 ∨ ∃ p, BrokeOff directory d answer.1 p := by
  cases h with
  | refused f hdirectories => exact .inl fun _ _ _ hfile => hdirectories.keeps hfile
  | cut f hdirectories hplace hne _ hroom hsize =>
      refine .inr ⟨_, Disk.placeOf_of_grows (Disk.grows_put hne _) hplace,
        ⟨_, _, _, hroom, hsize, Disk.get?_put_self ..⟩, fun q _ _ hq hfile => ?_⟩
      rw [Disk.get?_put_of_ne hq]
      exact hdirectories.keeps hfile
  | written => exact absurd rfl hexit

/-- The text of the schema is in its place, whether it can be read or not. -/
theorem Emits.schemaContent?_of_written (h : Emits directory d answer)
    (hexit : answer.2.exitCode = 0) :
    schemaContent? (answer.1.under .none) directory = some schemaBytes := by
  cases h with
  | refused f => cases hexit
  | cut f => cases hexit
  | written hdirectories hplace hne => exact schemaContent?_put hplace hne _ _

end Emits

/-! ## Behind the schema -/

section Written

variable (h : schemaContent? (d.under .none) directory = some schemaBytes)
include h

/-- Where the schema file is, and that it holds the text. -/
theorem exists_place_of_written : ∃ p executable,
    (d.under .none).placeOf (schemaPath directory) = .ok p
      ∧ d.get? p = some (.file schemaBytes executable) := by
  obtain ⟨p, executable, hplace, hsee, -⟩ := schemaContent?_eq_some_iff.mp h
  exact ⟨p, executable, hplace, (Disk.see_ok_iff.mp hsee).2⟩

theorem emitSchemas_unchanged (hroom : d.obstacles.HasRoom schemaBytes.size) :
    (emitSchemas d directory).1 = d := by
  obtain ⟨p, executable, hplace, hfile⟩ := exists_place_of_written h
  have hfolder := Disk.isDirectory_of_placeOf_below (below_schemaPath directory) hplace
  have hmake := Disk.makeDirectories_unchanged hfolder
  simp only [emitSchemas, toUTF8_schemaText]
  generalize d.makeDirectories (schemaFolder directory) = made at hmake
  obtain ⟨d', e | _⟩ := made
  · exact hmake
  · obtain rfl : d' = d := hmake
    rcases Disk.write_cases d' (schemaPath directory) schemaBytes with
      ⟨e, hwrite⟩ | ⟨q, hq, -, hfree, hwrite⟩
    · simp only [hwrite]
    · -- The path leads to the file that holds the text, if it can be followed.
      obtain rfl := Except.ok.inj ((Disk.placeOf_unhindered hq).symm.trans hplace)
      rw [Obstacles.fill_of_hasRoom hroom hfree, hfile] at hwrite
      simp only [hwrite]
      exact Disk.put_of_get? hfile

theorem schemaContent?_of_free (hfree : ∀ a p, d.obstacles.refusal? a p = none) :
    schemaContent? d directory = some schemaBytes := by
  obtain ⟨p, executable, hplace, hsee, -⟩ := schemaContent?_eq_some_iff.mp h
  have hgrows : (d.under .none).Grows d := ⟨rfl, fun _ hp => hp, fun a p _ => hfree a p⟩
  refine schemaContent?_eq_some_iff.mpr
    ⟨p, executable, Disk.placeOf_of_grows hgrows hplace, ?_, hfree _ _⟩
  exact Disk.see_ok_iff.mpr ⟨hfree _ _, (Disk.see_ok_iff.mp hsee).2⟩

theorem exitCode_emitSchemas_of_free (hfree : ∀ a p, d.obstacles.refusal? a p = none)
    (hroom : d.obstacles.HasRoom schemaBytes.size) : (emitSchemas d directory).2.exitCode = 0 := by
  obtain ⟨p, executable, hplace, hsee, -⟩ :=
    schemaContent?_eq_some_iff.mp (schemaContent?_of_free h hfree)
  have hfolder := Disk.isDirectory_of_placeOf_below (below_schemaPath directory) hplace
  have hne : d.get? p ≠ some .directory := by
    rw [(Disk.see_ok_iff.mp hsee).2]
    exact nofun
  have hwrite := @Disk.write_of_placeOf d _ p schemaBytes hplace hne (hfree _ _)
  rw [Obstacles.fill_of_hasRoom hroom (hfree _ _)] at hwrite
  simp only [emitSchemas, toUTF8_schemaText, Disk.makeDirectories_of_isDirectory hfolder, hwrite]
  rfl

/-- What can be read of the schema file is the text. -/
theorem schemaContent?_of_ne_none (hread : schemaContent? d directory ≠ none) :
    schemaContent? d directory = some schemaBytes := by
  obtain ⟨content, hcontent⟩ := Option.ne_none_iff_exists'.mp hread
  have hbytes : d.readBytes (schemaPath directory) = .ok content :=
    Disk.readBytes_ok_iff.mpr (schemaContent?_eq_some_iff.mp hcontent)
  have hunhindered : schemaContent? (d.under .none) directory = some content := by
    rw [schemaContent?, Disk.readBytes_under (fun _ _ _ => rfl) hbytes]
    rfl
  rw [hcontent, ← hunhindered, h]

end Written

theorem fromUTF8?_schemaBytes : String.fromUTF8? schemaBytes = some Config.Schema.text := by
  rw [← toUTF8_schemaText]
  exact fromUTF8?_toUTF8 _

theorem isSchema_value : isSchema Config.Schema.value = true := decide_eq_true rfl

theorem schemaBytes_denote : ∃ text v, String.fromUTF8? schemaBytes = some text
    ∧ Json.parse? text.toList = some v ∧ isSchema v = true :=
  ⟨Config.Schema.text, Config.Schema.value, fromUTF8?_schemaBytes, Json.parse?_schemaText,
    isSchema_value⟩

theorem holds_of_schemaContent? {content : ByteArray}
    (h : schemaContent? d directory = some content) : d.holds (schemaPath directory) = true := by
  obtain ⟨p, executable, hplace, hsee, -⟩ := schemaContent?_eq_some_iff.mp h
  exact Disk.holds_of_find (Disk.find_ok_iff.mpr ⟨p, hplace, hsee⟩)

theorem readText_ok_iff {text : String} : d.readText (schemaPath directory) = .ok text ↔
    ∃ content, schemaContent? d directory = some content
      ∧ String.fromUTF8? content = some text := by
  rw [Disk.readText_ok_iff, schemaContent?]
  cases d.readBytes (schemaPath directory) <;> simp [Except.toOption]

theorem checkSchemas_of_text {content : ByteArray} {text : String} {v : Json.Value}
    (h : schemaContent? d directory = some content) (htext : String.fromUTF8? content = some text)
    (hparse : Json.parse? text.toList = some v) (hsame : isSchema v = true) :
    checkSchemas d directory = success "Schema is up to date.\n" := by
  have hread : d.readText (schemaPath directory) = .ok text :=
    readText_ok_iff.mpr ⟨content, h, htext⟩
  rw [checkSchemas, holds_of_schemaContent? h, hread]
  simp only [hparse, hsame]
  rfl

theorem checkSchemas_of_written (h : schemaContent? d directory = some schemaBytes) :
    checkSchemas d directory = success "Schema is up to date.\n" := by
  obtain ⟨text, v, htext, hparse, hsame⟩ := schemaBytes_denote
  exact checkSchemas_of_text h htext hparse hsame

/-! ## Calls -/

theorem ofName_eq_emitSchemas_iff {name : String} :
    Command.ofName name = .emitSchemas ↔ name = "emit-schemas" := by
  constructor
  · intro h
    unfold Command.ofName at h
    split at h
    · cases h
    split at h
    · assumption
    split at h
    · cases h
    split at h <;> cases h
  · rintro rfl
    decide

theorem ofArgs_eq_emitSchemas_iff {args : List String} :
    Command.ofArgs args = .emitSchemas ↔ args.head? = some "emit-schemas" := by
  cases args with
  | nil => simp [Command.ofArgs]
  | cons name args => simp [Command.ofArgs, ofName_eq_emitSchemas_iff]

theorem ofArgs_of_check {args : List String}
    (h : args.head? = some "check-schemas" ∨ args.head? = some "validate-schemas") :
    Command.ofArgs args = .checkSchemas := by
  cases args with
  | nil => simp at h
  | cons name args =>
      simp only [List.head?_cons, Option.some.injEq] at h
      have hnames : Command.ofName "check-schemas" = .checkSchemas
          ∧ Command.ofName "validate-schemas" = .checkSchemas := by decide
      rcases h with rfl | rfl
      · exact hnames.1
      · exact hnames.2

section Calls

variable {home : Option String} {args : List String}

theorem call_of_emit (h : args.head? = some "emit-schemas") :
    call d home args = emitSchemas d (home.getD ".") := by
  rw [call, ofArgs_eq_emitSchemas_iff.mpr h]
  rfl

theorem call_of_check
    (h : args.head? = some "check-schemas" ∨ args.head? = some "validate-schemas") :
    call d home args = (d, checkSchemas d (home.getD ".")) := by
  rw [call, ofArgs_of_check h]
  rfl

theorem call_of_ne (h : args.head? ≠ some "emit-schemas") : (call d home args).1 = d := by
  have hne : Command.ofArgs args ≠ .emitSchemas :=
    fun hemit => h (ofArgs_eq_emitSchemas_iff.mp hemit)
  rw [call]
  cases hc : Command.ofArgs args with
  | emitSchemas => exact absurd hc hne
  | help => rfl
  | checkSchemas => rfl
  | printPresets => rfl
  | unknown name => rfl

/-- What the schema file can be left with by a call. -/
def Leaves (held : ByteArray → Prop) (c : Obstacles × List String) : Prop :=
  c.2.head? = some "emit-schemas" → ∀ p room cause, c.1.refusal? .write p = none →
    c.1.room? p = some (room, cause) → room < schemaBytes.size → held (schemaBytes.extract 0 room)

theorem leaves_isPart (c : Obstacles × List String) : Leaves IsPart c :=
  fun _ _ _ _ _ _ hsize => .cut hsize

theorem leaves_of_unbroken {c : Obstacles × List String} (h : Unbroken c) : Leaves held c :=
  fun hemit p room cause hfree hlimit hsize =>
    absurd (h hemit p room cause hfree hlimit) (Nat.not_le.mpr hsize)

theorem onlySchema_call (hwhole : held schemaBytes) (hleaves : Leaves held (d.obstacles, args)) :
    OnlySchema held (home.getD ".") d (call d home args).1 := by
  by_cases h : args.head? = some "emit-schemas"
  · rw [call_of_emit h]
    exact (emits_emitSchemas _ d).onlySchema hwhole (hleaves h)
  · rw [call_of_ne h]
    exact .refl held _ d

theorem onlySchema_after (hwhole : held schemaBytes) (d : Disk)
    (calls : List (Obstacles × List String)) (hleaves : ∀ c ∈ calls, Leaves held c) :
    OnlySchema held (home.getD ".") d (after home d calls) := by
  induction calls generalizing d with
  | nil => exact .refl held _ d
  | cons c calls ih =>
      obtain ⟨hfirst, hrest⟩ := List.forall_mem_cons.mp hleaves
      have hcall : OnlySchema held (home.getD ".") (d.under c.1) (call (d.under c.1) home c.2).1 :=
        onlySchema_call hwhole hfirst
      exact (hcall.under d.obstacles d.obstacles).trans (ih _ hrest)

section Written

variable (h : schemaContent? (d.under .none) (home.getD ".") = some schemaBytes)
include h

theorem call_of_written (o : Obstacles) (args : List String) (hroom : Unbroken (o, args)) :
    (call (d.under o) home args).1 = d.under o := by
  by_cases hargs : args.head? = some "emit-schemas"
  · rw [call_of_emit hargs]
    exact emitSchemas_unchanged (d := d.under o) h (hroom hargs)
  · exact call_of_ne hargs

theorem after_of_written (calls : List (Obstacles × List String))
    (hcalls : ∀ c ∈ calls, Unbroken c) : after home d calls = d := by
  induction calls with
  | nil => rfl
  | cons c calls ih =>
      obtain ⟨hfirst, hrest⟩ := List.forall_mem_cons.mp hcalls
      show after home ((call (d.under c.1) home c.2).1.under d.obstacles) calls = d
      rw [call_of_written h c.1 c.2 hfirst]
      exact ih hrest

theorem settled_of_written : Settled home d := by
  intro calls hcalls
  refine ⟨after_of_written h calls hcalls, fun o args => ⟨fun hcheck hread => ?_,
    fun hemit hroom => ⟨call_of_written h o args fun _ => hroom, fun hfree => ?_⟩⟩⟩
  · have hcontent : schemaContent? (d.under o) (home.getD ".") = some schemaBytes := by
      rcases hread with hread | hfree
      · exact schemaContent?_of_ne_none (d := d.under o) h hread
      · exact schemaContent?_of_free (d := d.under o) h hfree
    rw [call_of_check hcheck, checkSchemas_of_written hcontent]
  · rw [call_of_emit hemit]
    exact exitCode_emitSchemas_of_free (d := d.under o) h hfree hroom

end Written

theorem soundCall (home : Option String) (d : Disk) (args : List String) :
    SoundCall home d args := by
  refine ⟨onlySchema_call .whole (leaves_isPart _), call_of_ne, ?_, ?_⟩
  · intro hemit hexit
    rw [call_of_emit hemit] at hexit ⊢
    exact (emits_emitSchemas _ d).keepsFiles_or_brokeOff hexit
  · intro hemit hexit
    refine settled_of_written ?_
    rw [call_of_emit hemit] at hexit ⊢
    exact (emits_emitSchemas _ d).schemaContent?_of_written hexit

end Calls

/-- **The schema file stays sound**, whatever is called, wherever it starts
and whatever the system refuses. At every point the disk is the one at the
start up to the schema file and the folders above it, and the schema file is
what it was or holds the text that is written there; a part of this text
only if the write of some call broke off. What the next call does is sound:
unless it is `emit-schemas` it keeps the disk; one that fails keeps all
files, but for the schema file if its write broke off; and behind one that
succeeds everything is settled. -/
theorem schema_file_stays_sound (home : Option String) (d : Disk)
    (calls : List (Obstacles × List String)) :
    OnlySchema IsPart (home.getD ".") d (after home d calls)
      ∧ ((∀ c ∈ calls, Unbroken c) →
        OnlySchema (· = schemaBytes) (home.getD ".") d (after home d calls))
      ∧ ∀ o args, SoundCall home ((after home d calls).under o) args := by
  refine ⟨onlySchema_after .whole d calls fun c _ => leaves_isPart c, fun hcalls => ?_,
    fun _ args => soundCall home _ args⟩
  refine onlySchema_after ?_ d calls fun c hc => leaves_of_unbroken (hcalls c hc)
  rfl

/-- From nothing but a root, with a full device in the way of a check, and
where a file stands in place of the folder. -/
theorem schema_file_stays_sound_of_two_disks :
    let blocked : Disk := Disk.bare.put ["schemas"] (.file ⟨#[0x41]⟩ false)
    let full : Obstacles := ⟨fun _ _ => none, fun _ => some (2, .number 28)⟩
    let calls := [(.none, ["emit-schemas"]), (full, ["check-schemas"])]
    (call Disk.bare none ["check-schemas"]).2.exitCode = 1
      ∧ (∀ c ∈ calls, Unbroken c)
      ∧ OnlySchema (· = schemaBytes) "." Disk.bare (after none Disk.bare calls)
      ∧ Settled none (call Disk.bare none ["emit-schemas", "--force"]).1
      ∧ (call blocked none ["emit-schemas"]).2.exitCode = 1
      ∧ KeepsFiles blocked (call blocked none ["emit-schemas"]).1 := by
  intro blocked full calls
  have hcalls : ∀ c ∈ calls, Unbroken c := by
    refine List.forall_mem_cons.mpr ⟨fun _ => Obstacles.hasRoom_none _, ?_⟩
    exact List.forall_mem_singleton.mpr fun hemit => absurd hemit (by decide)
  have hwritten : (call Disk.bare none ["emit-schemas", "--force"]).2.exitCode = 0 := by
    decide +kernel
  have hfailed : (call blocked none ["emit-schemas"]).2.exitCode = 1 := by decide +kernel
  obtain ⟨-, hwhole, -⟩ := schema_file_stays_sound none Disk.bare calls
  obtain ⟨-, -, hbare⟩ := schema_file_stays_sound none Disk.bare []
  obtain ⟨-, -, hblocked⟩ := schema_file_stays_sound none blocked []
  refine ⟨by decide +kernel, hcalls, hwhole hcalls,
    (hbare .none _).written rfl hwritten, hfailed, ?_⟩
  have hexit : (call blocked none ["emit-schemas"]).2.exitCode ≠ 0 := by
    rw [hfailed]
    decide
  rcases (hblocked .none ["emit-schemas"]).failed rfl hexit with hkept | ⟨p, hbroke⟩
  · exact hkept
  · -- Nothing limits the room here.
    obtain ⟨room, cause, -, hroom, -⟩ := hbroke.cut
    cases hroom

/-! ## Where the file is not kept -/

theorem size_schemaBytes_pos : 0 < schemaBytes.size := by
  rw [← toUTF8_schemaText, Config.Schema.text]
  show 0 < (Config.Schema.value.layout ++ "\n").utf8ByteSize
  rw [String.utf8ByteSize_append]
  exact Nat.lt_add_left _ (by decide)

theorem exitCode_failure (f : Failure) : (failure f).exitCode = 1 := rfl

/-- A file in place of the schema, on a device without room. -/
def fullDisk : Disk where
  get? := fun p =>
    if p = [] ∨ p = ["schemas"] then some .directory
    else if p = ["schemas", schemaFile] then some (.file "{}".toUTF8 false) else none
  here := []
  obstacles := ⟨fun _ _ => none, fun _ => some (0, .number 28)⟩

theorem call_fullDisk : call fullDisk none ["emit-schemas"]
    = (fullDisk.put ["schemas", schemaFile] (.file .empty false),
      failure (failed ["Failed to write schema to " ++ schemaPath ".",
        (SystemError.number 28).message])) := by
  have hplace : fullDisk.placeOf (schemaPath ".") = .ok ["schemas", schemaFile] := by
    decide +kernel
  have hfile : fullDisk.get? ["schemas", schemaFile] = some (.file "{}".toUTF8 false) := rfl
  have hne : fullDisk.get? ["schemas", schemaFile] ≠ some .directory := by
    rw [hfile]
    exact nofun
  rw [call_of_emit rfl, Option.getD_none,
    emitSchemas_of_limit hplace hne rfl rfl size_schemaBytes_pos, hfile, ByteArray.extract_same]
  rfl

/-- A directory whose schema file is reached through a directory in place of
this file. -/
def detour : String := "/x/schemas/audit-gate.config.v1.json/../.."

/-- What stands behind the detour once the schema should have been written. -/
def detoured : Disk := (call Disk.bare (some detour) ["emit-schemas"]).1

theorem detoured_schemaPath :
    (call Disk.bare (some detour) ["emit-schemas"]).2.exitCode = 1
      ∧ detoured.placeOf (schemaPath detour) = .ok ["x", "schemas", schemaFile]
      ∧ detoured.see ["x", "schemas", schemaFile] = .ok .directory
      ∧ detoured.readText (schemaPath detour) = .error .isDirectory := by
  decide +kernel

/-- **The schema file is not kept** by every call that fails. On a full device
its old content is lost and nothing of the new one is there; and a path that
goes through the place of the schema file and back makes a directory of it,
which the check then finds. -/
theorem schema_file_not_kept :
    ((call fullDisk none ["emit-schemas"]).2.exitCode = 1
        ∧ fullDisk.get? ["schemas", schemaFile] = some (.file "{}".toUTF8 false)
        ∧ (call fullDisk none ["emit-schemas"]).1.get? ["schemas", schemaFile]
          = some (.file .empty false)
        ∧ ByteArray.empty ≠ schemaBytes)
      ∧ (call Disk.bare (some detour) ["emit-schemas"]).2.exitCode = 1
      ∧ detoured.placeOf (schemaPath detour) = .ok ["x", "schemas", schemaFile]
      ∧ Disk.bare.get? ["x", "schemas", schemaFile] = none
      ∧ detoured.get? ["x", "schemas", schemaFile] = some .directory
      ∧ (call detoured (some detour) ["check-schemas"]).2
        = failure (failed ["Failed to read " ++ schemaPath detour,
          SystemError.isDirectory.message]) := by
  obtain ⟨hexit, hplace, hsee, hread⟩ := detoured_schemaPath
  have hholds := Disk.holds_of_find (Disk.find_ok_iff.mpr ⟨_, hplace, hsee⟩)
  refine ⟨⟨?_, by decide +kernel, ?_, ?_⟩, hexit, hplace, by decide +kernel,
    (Disk.see_ok_iff.mp hsee).2, ?_⟩
  · rw [call_fullDisk]
    exact exitCode_failure _
  · rw [call_fullDisk, Disk.get?_put_self]
  · intro heq
    have hsize := size_schemaBytes_pos
    rw [← heq] at hsize
    cases hsize
  · rw [call_of_check (.inl rfl), checkSchemas, Option.getD_some, hholds, hread]
    rfl

end AdvisoryGate.Maintenance
