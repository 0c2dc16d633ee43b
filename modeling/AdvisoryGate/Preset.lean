import AdvisoryGate.Advisory

/-!
# Presets

The ignore lists that are built in, each known by the name of a profile.
-/

namespace AdvisoryGate.Preset

/-- The profile that is in force when none is named. -/
def defaultName : String := "default"

/-- The profile that ignores nothing. -/
def noneName : String := "none"

/-- Every profile there is. -/
def names : List String := [defaultName, noneName]

/-- Advisories accepted until a fix for them is released:
`RUSTSEC-2022-0093` (ed25519-dalek, double public key signing oracle) and
`RUSTSEC-2024-0344` (curve25519-dalek, timing of scalar subtraction). -/
def accepted : IgnoreList :=
  .literal ["RUSTSEC-2022-0093", "RUSTSEC-2024-0344"]

/-- The ignore list of a profile. -/
def find? (profile : String) : Option IgnoreList :=
  if profile = defaultName then some accepted
  else if profile = noneName then some .empty
  else none

end AdvisoryGate.Preset
