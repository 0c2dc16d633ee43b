import AdvisoryGate.Proofs.PathSpellings
import AdvisoryGate.Proofs.SchemaCheck

/-!
# The root of the project

The maintenance program finds the project through a directory: a last
component `xtask` is dropped, and it has to be the whole component
(`XtaskDropped`). So a project and the folder `xtask` in it make the program
use one schema file, in whatever way either is spelled (`SharesSchema`):
the paths are spellings of one, and calls from the two directories leave the
same disk and end with the same code.
-/

namespace AdvisoryGate.Maintenance

open AdvisoryGate.Path (components isAbsolute join slashes Same IsName)
open AdvisoryGate.Disk (Alike Fits)

/-- The calls leave the same disk and end with the same code. What they say
can differ in how a path is spelled. -/
structure EndsAlike (answer answer' : Disk × Report) : Prop where
  disk : answer.1 = answer'.1
  exitCode : answer.2.exitCode = answer'.2.exitCode

/-- The root of the project is the directory without a last component
`xtask`. -/
structure XtaskDropped (directory : String) : Prop where
  absolute : isAbsolute (projectRoot directory) = isAbsolute directory
  components : components (projectRoot directory) =
    if (components directory).getLast? = some "xtask" then (components directory).dropLast
    else components directory
  /-- Without a component to drop, the text stays as it is. -/
  verbatim : (Path.components directory).getLast? ≠ some "xtask" →
    projectRoot directory = directory
  /-- A longer name is not dropped. -/
  whole : ∀ above n, n ≠ "" → '/' ∉ n.toList → Same directory (join above (n ++ "xtask")) →
    projectRoot directory = directory
  once : ∀ above, Same directory (join (join above "xtask") "xtask") →
    Same (projectRoot directory) (join above "xtask")
  top : Same directory "/xtask" → projectRoot directory = "/"
  /-- The empty path is where we are: calls go as if no directory had been
  given. -/
  here : Same directory "xtask" → projectRoot directory = ""
    ∧ ∀ d args, EndsAlike (call d (some directory) args) (call d none args)

/-- From the directory, the schema file below the root is used, unless the
system refuses a spelling of its path for the length. -/
structure SharesSchema (root directory : String) : Prop where
  path : Same (schemaPath directory) (join (join root "schemas") schemaFile)
  calls : Fits (schemaPath directory) → Fits (join (join root "schemas") schemaFile) →
    ∀ d args, EndsAlike (call d (some directory) args) (call d (some root) args)

variable {root directory directory' : String}

/-! ## Names -/

theorem isName_xtask : IsName "xtask" := ⟨by decide, by decide⟩

theorem isName_schemas : IsName "schemas" := ⟨by decide, by decide⟩

theorem isName_schemaFile : IsName schemaFile := ⟨by decide, by decide⟩

theorem isName_append {n n' : String} (hn : '/' ∉ n.toList) (hne : n ≠ "") (hn' : IsName n') :
    IsName (n ++ n') := by
  have hchars : n.toList ≠ [] := by simpa using hne
  have hchars' : n'.toList ≠ [] := by simpa using hn'.ne_empty
  refine ⟨by simp [hn, hn'.noSlash], ?_⟩
  obtain ⟨c, cs, hcs⟩ := List.exists_cons_of_ne_nil hchars
  simp [Path.tells, hcs, hchars']

/-! ## The root -/

theorem projectRoot_of_last (h : (components directory).getLast? = some "xtask") :
    projectRoot directory = Path.parent directory :=
  if_pos ((Path.name_eq_iff (by decide)).mpr h)

theorem projectRoot_of_not_last (h : (components directory).getLast? ≠ some "xtask") :
    projectRoot directory = directory :=
  if_neg (mt (Path.name_eq_iff (by decide)).mp h)

/-- A folder `xtask` gives the path it is in. -/
theorem same_projectRoot (h : Same directory (join root "xtask")) :
    Same (projectRoot directory) root := by
  have hname : Path.name directory = "xtask" := h.name.trans (Path.name_join root isName_xtask)
  rw [projectRoot, if_pos hname]
  exact h.parent.trans (Path.parent_join root isName_xtask)

/-- Where only `xtask` is dropped, nothing is left but a root. -/
theorem projectRoot_of_single (h : components directory = ["xtask"]) :
    projectRoot directory = if isAbsolute directory then "/" else "" := by
  have hname : Path.name (Path.parent directory) = "" := by
    rw [← Path.components_eq_nil_iff, Path.components_parent, h]
    rfl
  rw [projectRoot_of_last (by rw [h]; rfl), ← Path.isAbsolute_parent]
  exact (Path.bare_parent directory).eq_of_no_name hname

/-! ## Calls from two directories -/

theorem endsAlike_success (d : Disk) (text text' : String) :
    EndsAlike (d, success text) (d, success text') := ⟨rfl, rfl⟩

theorem endsAlike_failure (d : Disk) (f f' : Failure) :
    EndsAlike (d, failure f) (d, failure f') := ⟨rfl, rfl⟩

section Calls

variable (hfolder : ∀ d : Disk, d.makeDirectories (schemaFolder directory)
  = d.makeDirectories (schemaFolder directory'))
variable (hpath : Alike (schemaPath directory) (schemaPath directory'))
include hpath

/-- Whether the check passes is a matter of what the schema file holds. -/
theorem exitCode_checkSchemas (d : Disk) :
    (checkSchemas d directory).exitCode = (checkSchemas d directory').exitCode := by
  have hcontent : schemaContent? d directory = schemaContent? d directory' := by
    rw [schemaContent?, schemaContent?, hpath.readBytes]
  rcases checkSchemas_cases d directory with ⟨hpassed, content, hread, hschema⟩ | ⟨hexit, hnone⟩
  · rw [hcontent] at hread
    rw [hpassed, checkSchemas_of_saysSchema hread hschema]
  · rw [hcontent] at hnone
    rw [hexit, checkSchemas_of_not_saysSchema fun content hread hschema =>
      hnone ⟨content, hread, hschema⟩]

include hfolder

theorem endsAlike_emitSchemas (d : Disk) :
    EndsAlike (emitSchemas d directory) (emitSchemas d directory') := by
  simp only [emitSchemas, toUTF8_schemaText, hfolder, hpath.write]
  -- The reports differ in the spelling of the path, so they are compared by cases.
  generalize d.makeDirectories (schemaFolder directory') = made
  obtain ⟨d', e | _⟩ := made
  · exact endsAlike_failure d' _ _
  · dsimp only
    generalize d'.write (schemaPath directory') schemaBytes = written
    obtain ⟨d'', e | _⟩ := written
    · exact endsAlike_failure d'' _ _
    · exact endsAlike_success d'' _ _

theorem endsAlike_call (d : Disk) (args : List String) :
    EndsAlike (call d (some directory) args) (call d (some directory') args) := by
  rw [call, call]
  cases Command.ofArgs args with
  | emitSchemas => exact endsAlike_emitSchemas hfolder hpath d
  | checkSchemas => exact ⟨rfl, exitCode_checkSchemas hpath d⟩
  | help => exact ⟨rfl, rfl⟩
  | printPresets => exact ⟨rfl, rfl⟩
  | unknown name => exact ⟨rfl, rfl⟩

end Calls

theorem tidy_schemaPath (h : Fits (schemaPath directory)) :
    Disk.Tidy (schemaFolder directory) ∧ Disk.Tidy (schemaPath directory) := by
  obtain ⟨rest, hrest⟩ := Path.exists_append_of_join (schemaFolder directory) schemaFile
  have hfolder : Fits (schemaFolder directory ++ rest) := hrest ▸ h
  exact ⟨⟨Path.bare_join _ isName_schemas, hfolder.of_append⟩,
    ⟨Path.bare_join _ isName_schemaFile, h⟩⟩

theorem endsAlike_of_same (h : Same (projectRoot directory) (projectRoot directory'))
    (hfits : Fits (schemaPath directory)) (hfits' : Fits (schemaPath directory')) (d : Disk)
    (args : List String) :
    EndsAlike (call d (some directory) args) (call d (some directory') args) := by
  have hfolder : Same (schemaFolder directory) (schemaFolder directory') := h.join isName_schemas
  have hpath : Same (schemaPath directory) (schemaPath directory') :=
    hfolder.join isName_schemaFile
  obtain ⟨hfolderTidy, hpathTidy⟩ := tidy_schemaPath hfits
  obtain ⟨hfolderTidy', hpathTidy'⟩ := tidy_schemaPath hfits'
  exact endsAlike_call
    (fun _ => Disk.makeDirectories_of_same hfolder hfolderTidy hfolderTidy')
    (Disk.alike_of_same hpath hpathTidy hpathTidy') d args

/-- A folder to be made where we are. -/
theorem makeDirectories_schemas (d : Disk) :
    d.makeDirectories "schemas" = d.makeDirectories (schemaFolder ".") := by
  have hdirect : Path.ancestors "schemas" = ["schemas"] := by decide
  have hbelow : Path.ancestors (schemaFolder ".") = ["." ++ "/" ++ "schemas", "."] := by decide
  have halike : Alike "schemas" ("." ++ "/" ++ "schemas") :=
    Disk.alike_below_here (by decide) (by decide) (by decide)
  have hchain : d.makeChain ["schemas", "."] = d.makeChain ["." ++ "/" ++ "schemas", "."] :=
    Disk.makeChain_of_alike (.cons halike (.cons (fun _ => rfl) .nil))
  rw [Disk.makeDirectories, Disk.makeDirectories, hdirect, hbelow, ← hchain,
    Disk.makeChain_here (by decide) (by decide) (by decide)]

theorem endsAlike_here (h : projectRoot directory = "") (d : Disk) (args : List String) :
    EndsAlike (call d (some directory) args) (call d none args) := by
  have hfolder : schemaFolder directory = "schemas" := by
    rw [schemaFolder, h]
    decide
  have hpath : schemaPath directory = "schemas/audit-gate.config.v1.json" := by
    rw [schemaPath, hfolder]
    decide
  show EndsAlike _ (call d (some ".") args)
  refine endsAlike_call (fun d => ?_) ?_ d args
  · rw [hfolder]
    exact makeDirectories_schemas d
  · rw [hpath]
    exact Disk.alike_below_here (by decide) (by decide) (by decide)

/-! ## The project -/

theorem xtaskDropped (directory : String) : XtaskDropped directory := by
  have hsingle : Same directory "xtask" ∨ Same directory "/xtask" →
      projectRoot directory = if isAbsolute directory then "/" else "" := by
    intro h
    refine projectRoot_of_single ?_
    rcases h with h | h <;> exact h.components.trans (by decide)
  refine ⟨?_, ?_, projectRoot_of_not_last, ?_, fun above => same_projectRoot, ?_, ?_⟩
  · rw [projectRoot]
    split
    · exact Path.isAbsolute_parent directory
    · rfl
  · split
    · rename_i hlast
      rw [projectRoot_of_last hlast, Path.components_parent]
    · rename_i hlast
      rw [projectRoot_of_not_last hlast]
  · intro above n hne hn h
    refine projectRoot_of_not_last ?_
    rw [h.components, Path.components_join above (isName_append hn hne isName_xtask),
      List.getLast?_concat]
    simpa using hne
  · intro h
    rw [hsingle (.inr h), h.absolute]
    decide
  · intro h
    have hempty : projectRoot directory = "" := by
      rw [hsingle (.inl h), h.absolute]
      decide
    exact ⟨hempty, endsAlike_here hempty⟩

theorem sharesSchema (hroot : (components root).getLast? ≠ some "xtask")
    (h : Same directory root ∨ Same directory (join root "xtask")) :
    SharesSchema root directory := by
  have hself := projectRoot_of_not_last hroot
  have hsame : Same (projectRoot directory) root := by
    rcases h with h | h
    · rw [projectRoot_of_not_last (by rw [h.components]; exact hroot)]
      exact h
    · exact same_projectRoot h
  refine ⟨(hsame.join isName_schemas).join isName_schemaFile, fun hfits hfits' => ?_⟩
  refine endsAlike_of_same ?_ hfits ?_
  · rw [hself]
    exact hsame
  · rw [schemaPath, schemaFolder, hself]
    exact hfits'

/-- **The project is found** from its root and from the folder `xtask` in
it, in whatever way they are spelled: one component is dropped from the end,
if it is `xtask` as a whole, and so either makes the program use the schema
file of the project. -/
theorem project_found_from_root_and_xtask (directory root : String) :
    XtaskDropped directory
      ∧ ((components root).getLast? ≠ some "xtask" →
        (Same directory root ∨ Same directory (join root "xtask") → SharesSchema root directory)
        ∧ (root ≠ "" → ∀ j k, SharesSchema root (root ++ slashes k)
          ∧ SharesSchema root (root ++ slashes (j + 1) ++ "xtask" ++ slashes k))) := by
  refine ⟨xtaskDropped directory, fun hroot => ⟨sharesSchema hroot, fun hne j k => ⟨?_, ?_⟩⟩⟩
  · exact sharesSchema hroot (.inl (Path.same_append_slashes hne k))
  · have hjoined : join (root ++ slashes (j + 1)) "xtask" = root ++ slashes (j + 1) ++ "xtask" :=
      Path.join_append_slashes root "xtask" j
    have hempty : join (root ++ slashes (j + 1)) "xtask" ≠ "" := by
      rw [hjoined]
      simp
    refine sharesSchema hroot (.inr ?_)
    rw [← hjoined]
    exact (Path.same_append_slashes hempty k).trans
      ((Path.same_append_slashes hne (j + 1)).join isName_xtask)

/-- A doubled slash and slashes at the end; a longer name; the folder in a
folder of that name; and the folder alone. -/
theorem project_found_of_five_spellings :
    SharesSchema "a//b/" "a//b/xtask//"
      ∧ projectRoot "a/my-xtask/" = "a/my-xtask/"
      ∧ Same (projectRoot "a/xtask//xtask") "a/xtask"
      ∧ projectRoot "//xtask" = "/"
      ∧ projectRoot "xtask/" = "" := by
  refine ⟨?_, ?_, ?_, ?_, ?_⟩
  · obtain ⟨-, hshares⟩ := project_found_from_root_and_xtask "a//b/xtask//" "a//b/"
    exact (hshares (by decide)).1 (.inr ⟨by decide, by decide⟩)
  · obtain ⟨hdropped, -⟩ := project_found_from_root_and_xtask "a/my-xtask/" "a"
    exact hdropped.whole "a" "my-" (by decide) (by decide) ⟨by decide, by decide⟩
  · obtain ⟨hdropped, -⟩ := project_found_from_root_and_xtask "a/xtask//xtask" "a"
    exact hdropped.once "a" ⟨by decide, by decide⟩
  · obtain ⟨hdropped, -⟩ := project_found_from_root_and_xtask "//xtask" "a"
    exact hdropped.top ⟨by decide, by decide⟩
  · obtain ⟨hdropped, -⟩ := project_found_from_root_and_xtask "xtask/" "a"
    exact (hdropped.here ⟨by decide, by decide⟩).1

end AdvisoryGate.Maintenance
