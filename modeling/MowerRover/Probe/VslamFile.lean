import MowerRover.Config.Vslam

/-!
# The checks that read `vslam.yaml`

Neither uses the loader of the configuration: each parses the file by itself and
looks for the keys it needs where it expects them.
-/

namespace MowerRover.Probe

open Numeric Config
open Zone (YamlFile)

/-- The number that Python compares a value by; a boolean is one. -/
def number : Yaml → Option PyFloat
  | .bool b => some (.fin (if b then 1 else 0))
  | .int i => some (.fin i)
  | .float f => some f
  | _ => none

/-- `(raw or {}).get`, which only a mapping has. -/
def rootOf (raw : Yaml) : Except PyError (List (Yaml × Yaml)) :=
  match if pyBool raw then raw else .dict [] with
  | .dict root => pure root
  | raw => throw (.attribute s!"'{raw.typeName}' object has no attribute 'get'")

def requiredParams : List (String × ℤ) := [("VISO_TYPE", 1), ("SCR_ENABLE", 1)]

def ek3Src2Keys : List String := ["EK3_SRC2_POSXY", "EK3_SRC2_VELXY", "EK3_SRC2_YAW"]

/-- What is wrong with the section `ardupilot_params`. -/
def missingParams (py : PyText) (params : List (Yaml × Yaml)) : List String :=
  (requiredParams.filterMap fun (key, expected) =>
    let val := Yaml.getD params key .null
    if number val = some (.fin expected) then none
    else some s!"{key}={expected} (got {py.str val})") ++
  ek3Src2Keys.filterMap fun key =>
    if (Yaml.lookup key params).isSome then none else some s!"{key} not set"

/-- A mapping with something in it. -/
def filledSection : Yaml → Option (List (Yaml × Yaml))
  | .dict entries => if entries.isEmpty then none else some entries
  | _ => none

def checkVslamParams (py : PyText) (path : String) : YamlFile → Except PyError (Bool × String)
  | .missing => pure (false, s!"VSLAM config missing: {path}")
  | .malformed message => pure (false, s!"Cannot parse VSLAM config: {message}")
  | .raised (.os message) => pure (false, s!"Cannot parse VSLAM config: {message}")
  | .raised error => throw error.toPyError
  | .document raw => do
    let root ← rootOf raw
    match filledSection (Yaml.getD root "ardupilot_params" .null) with
    | some params =>
      let missing := missingParams py params
      if missing ≠ [] then
        pure (false, "VSLAM params incomplete: " ++ ", ".intercalate missing)
      else pure (true, "VSLAM ArduPilot params configured")
    | none =>
      if (filledSection (Yaml.getD root "vslam" .null)).isSome then
        pure (true, "VSLAM config present (ardupilot_params section not yet added)")
      else pure (false, "VSLAM config file invalid or empty")

/-- `fragment in raw`. -/
def contains (fragment : String) : Yaml → Except PyError Bool
  | .str s => pure (decide (fragment.toList <:+: s.toList))
  | .list xs => pure (xs.any fun
    | .str s => s = fragment
    | _ => false)
  | .dict entries => pure (Yaml.lookup fragment entries).isSome
  | raw => throw (.type s!"argument of type '{raw.typeName}' is not iterable")

def checkVslamZoneMatch (py : PyText) (file : YamlFile) (zoneId : String) :
    Except PyError (Bool × String) :=
  match file with
  | .missing => pure (false, "VSLAM config file not found")
  | .malformed message => pure (false, s!"Failed to parse VSLAM config: {message}")
  | .raised error => pure (false, s!"Failed to parse VSLAM config: {error.toPyError.str}")
  | .document (.dict configData) => do
    let databasePath := Yaml.getD configData "database_path" (.str "")
    let expectedFragment := s!"zones/{zoneId}/"
    if ← contains expectedFragment databasePath then
      pure (true, s!"VSLAM database path matches zone {zoneId}: {py.str databasePath}")
    else
      pure (false, s!"VSLAM database_path '{py.str databasePath}' does not contain " ++
        s!"'{expectedFragment}'")
  | .document raw => throw (.attribute s!"'{raw.typeName}' object has no attribute 'get'")

theorem checkVslamZoneMatch_of_absent {py : PyText} {configData : List (Yaml × Yaml)}
    (h : Yaml.lookup "database_path" configData = none) (zoneId : String) :
    ∃ detail, checkVslamZoneMatch py (.document (.dict configData)) zoneId =
      .ok (false, detail) := by
  have hfragment : ¬ (s!"zones/{zoneId}/").toList <:+: "".toList := by
    intro hinfix
    have hlength := hinfix.length_le
    simp [toString] at hlength
  rw [checkVslamZoneMatch, Yaml.getD_of_absent h]
  simp only [contains, decide_eq_false hfragment, pure_eq_ok, ok_bind, Bool.false_eq_true,
    if_false]
  exact ⟨_, rfl⟩

/-- Without a section `ardupilot_params` it is enough that there are settings. -/
theorem checkVslamParams_of_section {py : PyText} {path : String}
    {root vslam : List (Yaml × Yaml)} (hparams : Yaml.lookup "ardupilot_params" root = none)
    (hvslam : Yaml.lookup "vslam" root = some (.dict vslam)) (hne : vslam ≠ []) :
    checkVslamParams py path (.document (.dict root)) =
      .ok (true, "VSLAM config present (ardupilot_params section not yet added)") := by
  have hroot : root ≠ [] := by
    rintro rfl
    cases hvslam
  have hrootOf : rootOf (.dict root) = .ok root := by simp [rootOf, pyBool, hroot]
  rw [checkVslamParams, hrootOf, ok_bind, Yaml.getD_of_absent hparams, Yaml.getD_of_lookup hvslam]
  simp [filledSection, hne]

end MowerRover.Probe
