import MowerRover.Params.ParamSet

/-!
# The shipped profiles

The two parameter files that come with the package, as `load_param_file` reads
them: names in the order of the file, integers and decimals as doubles.
-/

namespace MowerRover.Params

open Numeric

/-- `z254_baseline.yaml`. -/
def z254Baseline : List (String × PyFloat) :=
  [("FRAME_CLASS", .fin 1), ("BRD_SAFETY_DEFLT", .fin 0), ("SERVO1_FUNCTION", .fin 73),
    ("SERVO1_MIN", .fin 1000), ("SERVO1_MAX", .fin 2000), ("SERVO1_TRIM", .fin 1500),
    ("SERVO1_REVERSED", .fin 0), ("SERVO3_FUNCTION", .fin 74), ("SERVO3_MIN", .fin 1000),
    ("SERVO3_MAX", .fin 2000), ("SERVO3_TRIM", .fin 1500), ("SERVO3_REVERSED", .fin 0),
    ("MOT_THR_MAX", .fin 100), ("MOT_THR_MIN", .fin 0), ("MOT_SLEWRATE", .fin 100),
    ("MOT_PWM_TYPE", .fin 0), ("MOT_SAFE_DISARM", .fin 0), ("PILOT_STEER_TYPE", .fin 0),
    ("AHRS_EKF_TYPE", .fin 3), ("AHRS_ORIENTATION", .fin 0), ("EK2_ENABLE", .fin 0),
    ("EK3_ENABLE", .fin 1), ("GPS1_TYPE", .fin 10), ("GPS2_TYPE", .fin 0),
    ("GPS_AUTO_CONFIG", .fin 0), ("GPS_AUTO_SWITCH", .fin 0), ("GPS_RATE_MS", .fin 200),
    ("SERIAL3_PROTOCOL", .fin 5), ("SERIAL3_BAUD", .fin 230), ("GPS1_POS_X", .fin 0),
    ("GPS1_POS_Y", .fin 0), ("GPS1_POS_Z", .fin 0), ("EK3_SRC1_POSXY", .fin 1),
    ("EK3_SRC1_VELXY", .fin 1), ("EK3_SRC1_POSZ", .fin 1), ("EK3_SRC1_VELZ", .fin 1),
    ("EK3_SRC1_YAW", .fin 2), ("COMPASS_USE", .fin 0), ("COMPASS_USE2", .fin 0),
    ("COMPASS_USE3", .fin 0), ("SERIAL1_PROTOCOL", .fin 2), ("SERIAL2_PROTOCOL", .fin 2),
    ("RC_PROTOCOLS", .fin 0), ("ATC_STR_RAT_FF", .ofRat (1 / 5)),
    ("ATC_STR_RAT_P", .ofRat (1 / 25)), ("ATC_STR_RAT_I", .ofRat (1 / 25)),
    ("ATC_STR_RAT_D", .fin 0), ("ATC_STR_RAT_MAX", .fin 90), ("ACRO_TURN_RATE", .fin 90),
    ("ATC_SPEED_P", .ofRat (1 / 10)), ("ATC_SPEED_I", .ofRat (1 / 20)), ("ATC_SPEED_D", .fin 0),
    ("ATC_SPEED_FF", .fin 0), ("ATC_ACCEL_MAX", .fin 2), ("ATC_DECEL_MAX", .fin 0),
    ("ATC_TURN_MAX_G", .ofRat (3 / 10)), ("CRUISE_SPEED", .fin 2), ("CRUISE_THROTTLE", .fin 50),
    ("WP_SPEED", .fin 2), ("WP_RADIUS", .fin 1), ("WP_OVERSHOOT", .fin 1),
    ("WP_PIVOT_ANGLE", .fin 60), ("WP_PIVOT_RATE", .fin 45), ("FS_ACTION", .fin 2),
    ("FS_TIMEOUT", .ofRat (3 / 2)), ("FS_THR_ENABLE", .fin 0), ("FS_GCS_ENABLE", .fin 1),
    ("FS_CRASH_CHECK", .fin 2), ("CRASH_ANGLE", .fin 30), ("FS_EKF_ACTION", .fin 2),
    ("FS_EKF_THRESH", .ofRat (4 / 5)), ("FS_OPTIONS", .fin 1), ("RTL_SPEED", .fin 0),
    ("FENCE_ENABLE", .fin 1), ("FENCE_ACTION", .fin 2), ("ARMING_CHECK", .fin 13816),
    ("ARMING_REQUIRE", .fin 1), ("ARMING_NEED_LOC", .fin 1)]

/-- `safety-defaults.yaml`. -/
def safetyDefaults : List (String × PyFloat) :=
  [("FENCE_ENABLE", .fin 1), ("FENCE_ACTION", .fin 2), ("FS_EKF_ACTION", .fin 2),
    ("FS_ACTION", .fin 2), ("FS_GCS_ENABLE", .fin 1), ("ARMING_CHECK", .fin 13816)]

/-- A parameter file that loads as it stands: its names are in their normal form
and different, its values are numbers. -/
structure Profile where
  pairs : List (String × PyFloat)
  plain : ∀ p ∈ pairs, isPlain p.1 = true
  nodup : (pairs.map Prod.fst).Nodup
  finite : ∀ p ∈ pairs, p.2.isFinite = true

namespace Profile

def params (profile : Profile) : ParamSet := ⟨profile.pairs, profile.nodup⟩

def empty : Profile := ⟨[], by simp, by simp, by simp⟩

/-- A profile with one more value laid over it. -/
def set (profile : Profile) (name : String) (value : PyFloat) (hname : isPlain name = true)
    (hvalue : value.isFinite = true) : Profile where
  pairs := setItem profile.pairs name value
  plain p hp := by
    rcases mem_setItem hp with rfl | hp
    · exact hname
    · exact profile.plain p hp
  nodup := setItem_nodup profile.nodup name value
  finite p hp := by
    rcases mem_setItem hp with rfl | hp
    · exact hvalue
    · exact profile.finite p hp

theorem plain_of_mem_names {profile : Profile} {name : String} (h : name ∈ profile.params.names) :
    isPlain name = true := by
  obtain ⟨p, hp, rfl⟩ := List.mem_map.mp h
  exact profile.plain p hp

theorem finite_of_lookup {profile : Profile} {name : String} {value : PyFloat}
    (h : profile.params.lookup name = some value) : value.isFinite = true :=
  profile.finite _ (ParamSet.lookup_eq_some.mp h)

end Profile

def baselineProfile : Profile :=
    ⟨z254Baseline, by decide +kernel, by decide +kernel, by decide +kernel⟩

def safetyProfile : Profile :=
    ⟨safetyDefaults, by decide +kernel, by decide +kernel, by decide +kernel⟩

/-- `PROFILES`, each name with the content of its file. -/
def shippedProfiles : List (String × Profile) :=
  [("baseline", baselineProfile), ("safety-defaults", safetyProfile)]

def loadProfile (cm : CaseMap) (name : String) : Except PyError ParamSet :=
  match shippedProfiles.lookup name with
  | some profile => ParamSet.fromPairs cm profile.pairs
  | none =>
      throw (.other (strRepr s!"unknown profile {strRepr name}; known: baseline, safety-defaults"))

theorem loadProfile_eq {cm : CaseMap} {name : String} {profile : Profile}
    (h : shippedProfiles.lookup name = some profile) :
    loadProfile cm name = .ok profile.params := by
  unfold loadProfile
  rw [h]
  exact ParamSet.fromPairs_of_plain profile.plain profile.nodup

end MowerRover.Params
