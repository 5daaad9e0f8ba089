import MowerRover.Zone.Config

/-!
# `vslam.yaml`, as Python reads and writes it

The configuration of the SLAM node and of the bridge. Loading checks every
setting of the file and fills in those it leaves out; saving writes all of them.
A file that is not there stands for the defaults of the dataclass, which are not
in every case the ones that the loader fills in.
-/

namespace MowerRover.Config

open Numeric
open Zone (YamlFile)

/-- How Python writes values and sets into a text. The order in which a set is
written differs from one process to the next. -/
structure PyText where
  repr : Yaml → String
  str : Yaml → String
  setRepr : List String → String

/-- Texts are quoted as they stand and sets are written in the order of the source. -/
def PyText.plain : PyText where
  repr
    | .str s => s!"'{s}'"
    | raw => pyStr raw
  str := pyStr
  setRepr names := "\x7b" ++ ", ".intercalate (names.map fun name => s!"'{name}'") ++ "\x7d"

/-- A value `x` with `isinstance(x, int)`, which the two booleans are as well. -/
inductive PyInt
  | int (i : ℤ)
  | bool (b : Bool)
  deriving DecidableEq, Repr

namespace PyInt

def toInt : PyInt → ℤ
  | .int i => i
  | .bool b => if b then 1 else 0

def toYaml : PyInt → Yaml
  | .int i => .int i
  | .bool b => .bool b

def ofYaml : Yaml → Option PyInt
  | .int i => some (.int i)
  | .bool b => some (.bool b)
  | _ => none

theorem ofYaml_eq_some_iff {raw : Yaml} {i : PyInt} : ofYaml raw = some i ↔ raw = i.toYaml := by
  cases raw <;> cases i <;> simp [ofYaml, toYaml]

end PyInt

structure Extrinsics where
  posX : PyFloat := .ofRat (3 / 10)
  posY : PyFloat := .fin 0
  posZ : PyFloat := .ofRat (-(1 / 5))
  roll : PyFloat := .fin 0
  pitch : PyFloat := .fin (-15)
  yaw : PyFloat := .fin 0
  deriving DecidableEq, Repr

structure BridgeConfig where
  serialDevice : String := "/dev/ttyACM0"
  sourceSystem : PyInt := .int 1
  sourceComponent : PyInt := .int 197
  deriving DecidableEq, Repr

structure VslamConfig where
  odometryStrategy : String := "f2m"
  stereoResolution : String := "800p"
  stereoFps : PyInt := .int 30
  imuRateHz : PyInt := .int 200
  imuRotationSensor : String := "game_rotation_vector"
  poseOutputRateHz : PyInt := .int 20
  memoryThresholdMb : PyInt := .int 6000
  loopClosure : Bool := true
  databasePath : String := "/var/lib/mower/rtabmap.db"
  socketPath : String := "/run/mower/vslam-pose.sock"
  usbMaxSpeed : String := "SUPER"
  irDotProjectorMa : PyInt := .int 750
  irFloodLedMa : PyInt := .int 200
  slamMode : String := "mapping"
  extrinsics : Extrinsics := {}
  bridge : BridgeConfig := {}
  deriving DecidableEq, Repr

/-- `asdict(extrinsics)`. -/
def Extrinsics.entries (e : Extrinsics) : List (Yaml × Yaml) :=
  [(.str "pos_x", .float e.posX),
    (.str "pos_y", .float e.posY),
    (.str "pos_z", .float e.posZ),
    (.str "roll", .float e.roll),
    (.str "pitch", .float e.pitch),
    (.str "yaw", .float e.yaw)]

/-- `asdict(bridge)`. -/
def BridgeConfig.entries (b : BridgeConfig) : List (Yaml × Yaml) :=
  [(.str "serial_device", .str b.serialDevice),
    (.str "source_system", b.sourceSystem.toYaml),
    (.str "source_component", b.sourceComponent.toYaml)]

/-- The section `vslam` of the file. -/
def VslamConfig.entries (c : VslamConfig) : List (Yaml × Yaml) :=
  [(.str "odometry_strategy", .str c.odometryStrategy),
    (.str "stereo_resolution", .str c.stereoResolution),
    (.str "stereo_fps", c.stereoFps.toYaml),
    (.str "imu_rate_hz", c.imuRateHz.toYaml),
    (.str "imu_rotation_sensor", .str c.imuRotationSensor),
    (.str "pose_output_rate_hz", c.poseOutputRateHz.toYaml),
    (.str "memory_threshold_mb", c.memoryThresholdMb.toYaml),
    (.str "loop_closure", .bool c.loopClosure),
    (.str "database_path", .str c.databasePath),
    (.str "socket_path", .str c.socketPath),
    (.str "usb_max_speed", .str c.usbMaxSpeed),
    (.str "ir_dot_projector_ma", c.irDotProjectorMa.toYaml),
    (.str "ir_flood_led_ma", c.irFloodLedMa.toYaml),
    (.str "slam_mode", .str c.slamMode),
    (.str "extrinsics", .dict c.extrinsics.entries)]

def VslamConfig.toDict (c : VslamConfig) : Yaml :=
  .dict [(.str "vslam", .dict c.entries), (.str "bridge", .dict c.bridge.entries)]

def validOdometry : List String := ["f2m", "f2f", "fovis", "viso2", "orbslam2"]
def validResolutions : List String := ["400p", "480p", "720p", "800p"]
def validUsbSpeeds : List String := ["HIGH", "SUPER", "SUPER_PLUS"]
def validImuRotationSensors : List String :=
  ["game_rotation_vector", "rotation_vector", "arvr_stabilized_game_rotation_vector"]
def validSlamModes : List String := ["mapping", "localization"]

variable (py : PyText)

/-- `VslamConfigError`, which is a `ValueError`. -/
def refuse {α : Type} (message : String) : Except PyError α := throw (.value message)

/-- `raw not in valid`, which needs `raw` to have a hash. -/
def checkOneOf (field : String) (valid : List String) (raw : Yaml) : Except PyError String :=
  match raw with
  | .str s => if s ∈ valid then pure s else wrong
  | .list _ | .dict _ => throw (.type s!"unhashable type: '{raw.typeName}'")
  | _ => wrong
where
  wrong : Except PyError String :=
    refuse s!"{field} must be one of {py.setRepr valid}, got {py.repr raw}"

/-- An integer within bounds, with the words for what is expected. -/
def checkInt (field kind : String) (within : ℤ → Bool) (raw : Yaml) : Except PyError PyInt :=
  match PyInt.ofYaml raw with
  | some i => if within i.toInt then pure i else wrong
  | none => wrong
where
  wrong : Except PyError PyInt := refuse s!"{field} must be {kind}, got {py.repr raw}"

def checkPositive (field : String) : Yaml → Except PyError PyInt :=
  checkInt py field "a positive integer" fun i => !(i ≤ 0)

def checkNonNegative (field : String) : Yaml → Except PyError PyInt :=
  checkInt py field "a non-negative integer" fun i => !(i < 0)

def checkMilliamps (field : String) (limit : ℤ) : Yaml → Except PyError PyInt :=
  checkInt py field s!"int 0–{limit}" fun i => 0 ≤ i && i ≤ limit

def checkBool (field : String) : Yaml → Except PyError Bool
  | .bool b => pure b
  | raw => refuse s!"{field} must be bool, got {raw.typeName}"

def checkString (field : String) : Yaml → Except PyError String
  | .str s => pure s
  | raw => refuse s!"{field} must be a string, got {raw.typeName}"

/-- An entry of `extrinsics`; one that is null counts as left out. -/
def coerceOffset (entries : List (Yaml × Yaml)) (key : String) (default : PyFloat) :
    Except PyError PyFloat :=
  match Yaml.getD entries key .null with
  | .null => pure default
  | .bool b => pyFloat (.bool b)
  | .int i => pyFloat (.int i)
  | .float f => pyFloat (.float f)
  | raw => refuse s!"extrinsics.{key} must be a number, got {raw.typeName}"

def coerceExtrinsics : Yaml → Except PyError Extrinsics
  | .null => pure {}
  | .dict entries => do
    let d : Extrinsics := {}
    pure { posX := ← coerceOffset entries "pos_x" d.posX
           posY := ← coerceOffset entries "pos_y" d.posY
           posZ := ← coerceOffset entries "pos_z" d.posZ
           roll := ← coerceOffset entries "roll" d.roll
           pitch := ← coerceOffset entries "pitch" d.pitch
           yaw := ← coerceOffset entries "yaw" d.yaw }
  | raw => refuse s!"extrinsics must be a mapping, got {raw.typeName}"

def coerceBridge : Yaml → Except PyError BridgeConfig
  | .null => pure {}
  | .dict entries => do
    let get := Yaml.getD entries
    pure { serialDevice := ← checkString "bridge.serial_device"
             (get "serial_device" (.str "/dev/ttyACM0"))
           sourceSystem := ← checkNonNegative py "bridge.source_system"
             (get "source_system" (.int 1))
           sourceComponent := ← checkNonNegative py "bridge.source_component"
             (get "source_component" (.int 197)) }
  | raw => refuse s!"bridge must be a mapping, got {raw.typeName}"

def coerce : Yaml → Except PyError VslamConfig
  | .dict raw =>
    match Yaml.getD raw "vslam" (.dict []) with
    | .dict vslamRaw => do
      let get := Yaml.getD vslamRaw
      pure { odometryStrategy := ← checkOneOf py "odometry_strategy" validOdometry
               (get "odometry_strategy" (.str "f2m"))
             stereoResolution := ← checkOneOf py "stereo_resolution" validResolutions
               (get "stereo_resolution" (.str "400p"))
             stereoFps := ← checkPositive py "stereo_fps" (get "stereo_fps" (.int 30))
             imuRateHz := ← checkPositive py "imu_rate_hz" (get "imu_rate_hz" (.int 200))
             imuRotationSensor := ← checkOneOf py "imu_rotation_sensor" validImuRotationSensors
               (get "imu_rotation_sensor" (.str "game_rotation_vector"))
             poseOutputRateHz := ← checkPositive py "pose_output_rate_hz"
               (get "pose_output_rate_hz" (.int 20))
             memoryThresholdMb := ← checkPositive py "memory_threshold_mb"
               (get "memory_threshold_mb" (.int 6000))
             loopClosure := ← checkBool "loop_closure" (get "loop_closure" (.bool true))
             databasePath := ← checkString "database_path"
               (get "database_path" (.str "/var/lib/mower/rtabmap.db"))
             socketPath := ← checkString "socket_path"
               (get "socket_path" (.str "/run/mower/vslam-pose.sock"))
             usbMaxSpeed := ← checkOneOf py "usb_max_speed" validUsbSpeeds
               (get "usb_max_speed" (.str "SUPER"))
             irDotProjectorMa := ← checkMilliamps py "ir_dot_projector_ma" 1200
               (get "ir_dot_projector_ma" (.int 750))
             irFloodLedMa := ← checkMilliamps py "ir_flood_led_ma" 1500
               (get "ir_flood_led_ma" (.int 200))
             slamMode := ← checkOneOf py "slam_mode" validSlamModes
               (get "slam_mode" (.str "mapping"))
             extrinsics := ← coerceExtrinsics (get "extrinsics" .null)
             bridge := ← coerceBridge py (Yaml.getD raw "bridge" .null) }
    | vslamRaw => refuse s!"'vslam' must be a mapping, got {vslamRaw.typeName}"
  | raw => refuse s!"top-level YAML must be a mapping, got {raw.typeName}"

def loadVslamConfig (path : String) : YamlFile → Except PyError VslamConfig
  | .missing => pure {}
  | .malformed message => refuse s!"failed to parse {path}: {message}"
  | .raised error => throw error.toPyError
  -- `or {}`: every document that counts as false is read as an empty mapping
  | .document raw => coerce py (if pyBool raw then raw else .dict [])

/-- What the file holds once it has been written. -/
def saveVslamConfig (c : VslamConfig) : YamlFile := .document c.toDict

variable {py}

theorem checkOneOf_eq_ok_iff {field s : String} {valid : List String} {raw : Yaml} :
    checkOneOf py field valid raw = .ok s ↔ raw = .str s ∧ s ∈ valid := by
  cases raw with
  | str t =>
    by_cases ht : t ∈ valid
    · simp only [checkOneOf, if_pos ht, pure_eq_ok, Except.ok.injEq, Yaml.str.injEq]
      exact ⟨fun h => ⟨h, h ▸ ht⟩, fun h => h.1⟩
    · simp only [checkOneOf, if_neg ht, checkOneOf.wrong, refuse, throw_eq_error, reduceCtorEq,
        Yaml.str.injEq, false_iff]
      rintro ⟨rfl, hs⟩
      exact ht hs
  | _ => simp [checkOneOf, checkOneOf.wrong, refuse]

theorem checkInt_eq_ok_iff {field kind : String} {within : ℤ → Bool} {raw : Yaml} {i : PyInt} :
    checkInt py field kind within raw = .ok i ↔ raw = i.toYaml ∧ within i.toInt = true := by
  rw [← PyInt.ofYaml_eq_some_iff]
  unfold checkInt
  cases hraw : PyInt.ofYaml raw with
  | none => simp [checkInt.wrong, refuse]
  | some j =>
    by_cases hj : within j.toInt = true
    · simp only [if_pos hj, pure_eq_ok, Except.ok.injEq, Option.some.injEq]
      exact ⟨fun h => ⟨h, h ▸ hj⟩, fun h => h.1⟩
    · simp only [if_neg hj, checkInt.wrong, refuse, throw_eq_error, reduceCtorEq,
        Option.some.injEq, false_iff]
      rintro ⟨rfl, hi⟩
      exact hj hi

theorem checkBool_eq_ok_iff {field : String} {raw : Yaml} {b : Bool} :
    checkBool field raw = .ok b ↔ raw = .bool b := by
  cases raw <;> simp [checkBool, refuse]

theorem checkString_eq_ok_iff {field s : String} {raw : Yaml} :
    checkString field raw = .ok s ↔ raw = .str s := by
  cases raw <;> simp [checkString, refuse]

/-- What holds of the settings that the loader accepts. -/
structure VslamConfig.Valid (c : VslamConfig) : Prop where
  odometryStrategy : c.odometryStrategy ∈ validOdometry
  stereoResolution : c.stereoResolution ∈ validResolutions
  stereoFps : 0 < c.stereoFps.toInt
  imuRateHz : 0 < c.imuRateHz.toInt
  imuRotationSensor : c.imuRotationSensor ∈ validImuRotationSensors
  poseOutputRateHz : 0 < c.poseOutputRateHz.toInt
  memoryThresholdMb : 0 < c.memoryThresholdMb.toInt
  usbMaxSpeed : c.usbMaxSpeed ∈ validUsbSpeeds
  irDotProjectorMa : 0 ≤ c.irDotProjectorMa.toInt ∧ c.irDotProjectorMa.toInt ≤ 1200
  irFloodLedMa : 0 ≤ c.irFloodLedMa.toInt ∧ c.irFloodLedMa.toInt ≤ 1500
  slamMode : c.slamMode ∈ validSlamModes
  sourceSystem : 0 ≤ c.bridge.sourceSystem.toInt
  sourceComponent : 0 ≤ c.bridge.sourceComponent.toInt

/-- The values of the section `vslam`, with those that it leaves out filled in. -/
structure VslamConfig.Reads (vslam : List (Yaml × Yaml)) (c : VslamConfig) : Prop where
  odometryStrategy : Yaml.getD vslam "odometry_strategy" (.str "f2m") = .str c.odometryStrategy
  stereoResolution : Yaml.getD vslam "stereo_resolution" (.str "400p") = .str c.stereoResolution
  stereoFps : Yaml.getD vslam "stereo_fps" (.int 30) = c.stereoFps.toYaml
  imuRateHz : Yaml.getD vslam "imu_rate_hz" (.int 200) = c.imuRateHz.toYaml
  imuRotationSensor : Yaml.getD vslam "imu_rotation_sensor" (.str "game_rotation_vector") =
    .str c.imuRotationSensor
  poseOutputRateHz : Yaml.getD vslam "pose_output_rate_hz" (.int 20) = c.poseOutputRateHz.toYaml
  memoryThresholdMb : Yaml.getD vslam "memory_threshold_mb" (.int 6000) =
    c.memoryThresholdMb.toYaml
  loopClosure : Yaml.getD vslam "loop_closure" (.bool true) = .bool c.loopClosure
  databasePath : Yaml.getD vslam "database_path" (.str "/var/lib/mower/rtabmap.db") =
    .str c.databasePath
  socketPath : Yaml.getD vslam "socket_path" (.str "/run/mower/vslam-pose.sock") =
    .str c.socketPath
  usbMaxSpeed : Yaml.getD vslam "usb_max_speed" (.str "SUPER") = .str c.usbMaxSpeed
  irDotProjectorMa : Yaml.getD vslam "ir_dot_projector_ma" (.int 750) = c.irDotProjectorMa.toYaml
  irFloodLedMa : Yaml.getD vslam "ir_flood_led_ma" (.int 200) = c.irFloodLedMa.toYaml
  slamMode : Yaml.getD vslam "slam_mode" (.str "mapping") = .str c.slamMode
  extrinsics : coerceExtrinsics (Yaml.getD vslam "extrinsics" .null) = .ok c.extrinsics

/-- The values of the section `bridge`, which may be null. -/
inductive BridgeConfig.Reads : Yaml → BridgeConfig → Prop
  | null : Reads .null {}
  | dict {entries : List (Yaml × Yaml)} {b : BridgeConfig}
      (serialDevice : Yaml.getD entries "serial_device" (.str "/dev/ttyACM0") = .str b.serialDevice)
      (sourceSystem : Yaml.getD entries "source_system" (.int 1) = b.sourceSystem.toYaml)
      (sourceComponent : Yaml.getD entries "source_component" (.int 197) =
        b.sourceComponent.toYaml) : Reads (.dict entries) b

theorem coerceBridge_eq_ok_iff {raw : Yaml} {b : BridgeConfig} :
    coerceBridge py raw = .ok b ↔
      b.Reads raw ∧ 0 ≤ b.sourceSystem.toInt ∧ 0 ≤ b.sourceComponent.toInt := by
  cases raw with
  | null =>
    constructor
    · intro h
      obtain rfl := Except.ok.inj h
      exact ⟨.null, by decide, by decide⟩
    · rintro ⟨⟨⟩, -, -⟩
      rfl
  | dict entries =>
    simp only [coerceBridge, bind_eq_ok, checkString_eq_ok_iff, checkNonNegative,
      checkInt_eq_ok_iff, Bool.not_eq_true', decide_eq_false_iff_not, not_lt]
    constructor
    · rintro ⟨_, hdevice, _, ⟨hsystem, hsys⟩, _, ⟨hcomponent, hcomp⟩, h⟩
      obtain rfl := Except.ok.inj h
      exact ⟨.dict hdevice hsystem hcomponent, hsys, hcomp⟩
    · rintro ⟨⟨⟩, hsys, hcomp⟩
      exact ⟨_, ‹_›, _, ⟨‹_›, hsys⟩, _, ⟨‹_›, hcomp⟩, rfl⟩
  | _ =>
    constructor
    · simp [coerceBridge, refuse]
    · rintro ⟨⟨⟩, -, -⟩

/-- The loader accepts a mapping whose settings are valid, and nothing else. -/
theorem coerce_eq_ok_iff {doc : Yaml} {c : VslamConfig} :
    coerce py doc = .ok c ↔ ∃ entries vslam, doc = .dict entries ∧
      Yaml.getD entries "vslam" (.dict []) = .dict vslam ∧ c.Reads vslam ∧
        c.bridge.Reads (Yaml.getD entries "bridge" .null) ∧ c.Valid := by
  cases doc with
  | dict entries =>
    cases hvslam : Yaml.getD entries "vslam" (.dict []) with
    | dict vslam =>
      simp only [coerce, hvslam, bind_eq_ok, checkOneOf_eq_ok_iff, checkPositive, checkMilliamps,
        checkInt_eq_ok_iff, checkBool_eq_ok_iff, checkString_eq_ok_iff, coerceBridge_eq_ok_iff,
        Bool.not_eq_true', decide_eq_false_iff_not, not_le, Bool.and_eq_true, decide_eq_true_eq]
      constructor
      · rintro ⟨_, ⟨h₁, v₁⟩, _, ⟨h₂, v₂⟩, _, ⟨h₃, v₃⟩, _, ⟨h₄, v₄⟩, _, ⟨h₅, v₅⟩, _, ⟨h₆, v₆⟩,
          _, ⟨h₇, v₇⟩, _, h₈, _, h₉, _, h₁₀, _, ⟨h₁₁, v₁₁⟩, _, ⟨h₁₂, v₁₂⟩, _, ⟨h₁₃, v₁₃⟩,
          _, ⟨h₁₄, v₁₄⟩, _, h₁₅, _, ⟨h₁₆, v₁₆, v₁₇⟩, h⟩
        obtain rfl := Except.ok.inj h
        exact ⟨entries, vslam, rfl, hvslam, ⟨h₁, h₂, h₃, h₄, h₅, h₆, h₇, h₈, h₉, h₁₀, h₁₁, h₁₂, h₁₃,
          h₁₄, h₁₅⟩, h₁₆, ⟨v₁, v₂, v₃, v₄, v₅, v₆, v₇, v₁₁, v₁₂, v₁₃, v₁₄, v₁₆, v₁₇⟩⟩
      · rintro ⟨_, _, h, h', hr, hb, hv⟩
        obtain rfl := Yaml.dict.inj h
        obtain rfl := Yaml.dict.inj (hvslam.symm.trans h')
        exact ⟨_, ⟨hr.odometryStrategy, hv.odometryStrategy⟩,
          _, ⟨hr.stereoResolution, hv.stereoResolution⟩, _, ⟨hr.stereoFps, hv.stereoFps⟩,
          _, ⟨hr.imuRateHz, hv.imuRateHz⟩, _, ⟨hr.imuRotationSensor, hv.imuRotationSensor⟩,
          _, ⟨hr.poseOutputRateHz, hv.poseOutputRateHz⟩,
          _, ⟨hr.memoryThresholdMb, hv.memoryThresholdMb⟩, _, hr.loopClosure, _, hr.databasePath,
          _, hr.socketPath, _, ⟨hr.usbMaxSpeed, hv.usbMaxSpeed⟩,
          _, ⟨hr.irDotProjectorMa, hv.irDotProjectorMa⟩, _, ⟨hr.irFloodLedMa, hv.irFloodLedMa⟩,
          _, ⟨hr.slamMode, hv.slamMode⟩, _, hr.extrinsics,
          _, ⟨hb, hv.sourceSystem, hv.sourceComponent⟩, rfl⟩
    | _ => simp [coerce, hvslam, refuse]
  | _ => simp [coerce, refuse]

theorem orEmpty_dict (root : List (Yaml × Yaml)) :
    (if pyBool (.dict root) then Yaml.dict root else .dict []) = .dict root := by
  split_ifs with htruthy
  · rfl
  · obtain rfl : root = [] := by simpa [pyBool] using htruthy
    rfl

theorem entries_of_orEmpty {raw : Yaml} {root : List (Yaml × Yaml)}
    (h : (if pyBool raw then raw else .dict []) = .dict root) : raw.entries = root := by
  by_cases htruthy : pyBool raw = true
  · rw [if_pos htruthy] at h
    rw [h, Yaml.entries]
  · rw [if_neg htruthy] at h
    obtain rfl := Yaml.dict.inj h
    cases raw with
    | dict entries => simpa [pyBool, Yaml.entries] using htruthy
    | _ => rfl

/-- An accepted document has a section `vslam`, empty when it is left out. -/
theorem loadVslamConfig_document {path : String} {raw : Yaml} {c : VslamConfig}
    (h : loadVslamConfig py path (.document raw) = .ok c) :
    ∃ vslam, Yaml.getD raw.entries "vslam" (.dict []) = .dict vslam ∧ c.Reads vslam ∧
      c.bridge.Reads (Yaml.getD raw.entries "bridge" .null) ∧ c.Valid := by
  obtain ⟨root, vslam, hraw, hvslam, hread, hbridge, hvalid⟩ := coerce_eq_ok_iff.mp h
  obtain rfl := entries_of_orEmpty hraw
  exact ⟨vslam, hvslam, hread, hbridge, hvalid⟩

theorem loadVslamConfig_valid {path : String} {file : YamlFile} {c : VslamConfig}
    (h : loadVslamConfig py path file = .ok c) : c.Valid := by
  cases file with
  | missing =>
    obtain rfl := Except.ok.inj h
    constructor <;> decide
  | malformed message => simp [loadVslamConfig, refuse] at h
  | raised error => simp [loadVslamConfig] at h
  | document raw =>
    obtain ⟨_, -, -, -, hvalid⟩ := loadVslamConfig_document h
    exact hvalid

theorem VslamConfig.reads_entries (c : VslamConfig) : c.Reads c.entries := by
  constructor <;> simp [entries, Extrinsics.entries, Yaml.getD, Yaml.lookup_cons,
    coerceExtrinsics, coerceOffset, pyFloat]

theorem BridgeConfig.reads_entries (b : BridgeConfig) : b.Reads (.dict b.entries) := by
  constructor <;> simp [entries, Yaml.getD, Yaml.lookup_cons]

theorem loadVslamConfig_save {path : String} {c : VslamConfig} (h : c.Valid) :
    loadVslamConfig py path (saveVslamConfig c) = .ok c := by
  have hload : loadVslamConfig py path (saveVslamConfig c) = coerce py c.toDict := rfl
  rw [hload]
  refine coerce_eq_ok_iff.mpr ⟨_, c.entries, rfl, ?_, c.reads_entries, ?_, h⟩
  · simp [Yaml.getD, Yaml.lookup_cons]
  · simpa [Yaml.getD, Yaml.lookup_cons] using c.bridge.reads_entries

end MowerRover.Config
