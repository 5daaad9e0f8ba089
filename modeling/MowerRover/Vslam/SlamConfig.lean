import MowerRover.Config.Vslam

/-!
# `vslam.yaml`, as the SLAM node reads it

The node has a default of its own for each setting and takes what the file has
in the order of the source. A conversion that fails ends the reading; what was
read until then stays, and the other settings keep their defaults.
-/

namespace MowerRover.Vslam

open Config
open Zone (YamlFile)

structure SlamConfig where
  socketPath : String := "/run/mower/vslam-pose.sock"
  stereoResolution : String := "800p"
  stereoFps : ℤ := 30
  imuRateHz : ℤ := 200
  usbMaxSpeed : String := "SUPER"
  irDotProjectorMa : ℤ := 750
  irFloodLedMa : ℤ := 200
  odometryStrategy : String := "f2m"
  poseOutputRateHz : ℤ := 20
  memoryThresholdMb : ℤ := 6000
  loopClosure : Bool := true
  databasePath : String := "/var/lib/mower/rtabmap.db"
  slamMode : String := "mapping"
  imuRotationSensor : String := "game_rotation_vector"
  deriving DecidableEq, Repr

/-- `as<std::string>()`. Scalars are resolved as PyYAML resolves them, so that a
conversion succeeds on the values of its own type. -/
def asString : Yaml → Option String
  | .str s => some s
  | _ => none

/-- `as<int>()`, for an `int` of 32 bits. -/
def asInt : Yaml → Option ℤ
  | .int i => if -2 ^ 31 ≤ i ∧ i < 2 ^ 31 then some i else none
  | _ => none

def asBool : Yaml → Option Bool
  | .bool b => some b
  | _ => none

/-- A setting of type `α`: its key, its conversion and its place in the configuration. -/
structure Setting (α : Type) where
  key : String
  convert : Yaml → Option α
  get : SlamConfig → α
  set : SlamConfig → α → SlamConfig
  set_get : ∀ cfg, set cfg (get cfg) = cfg

/-- What has been read so far, and whether the reading goes on. -/
structure Reading where
  cfg : SlamConfig := {}
  going : Bool := true

/-- `if (vslam[key]) cfg.setting = vslam[key].as<T>();` -/
def Reading.assign {α : Type} (vslam : List (Yaml × Yaml)) (setting : Setting α) (r : Reading) :
    Reading :=
  if r.going then
    match Yaml.lookup setting.key vslam with
    | some raw =>
      match setting.convert raw with
      | some a => { r with cfg := setting.set r.cfg a }
      | none => { r with going := false }
    | none => r
  else r

namespace Setting

def socketPath : Setting String :=
  ⟨"socket_path", asString, (·.socketPath), fun cfg v => { cfg with socketPath := v }, fun _ => rfl⟩

def stereoResolution : Setting String :=
  ⟨"stereo_resolution", asString, (·.stereoResolution),
    fun cfg v => { cfg with stereoResolution := v }, fun _ => rfl⟩

def stereoFps : Setting ℤ :=
  ⟨"stereo_fps", asInt, (·.stereoFps), fun cfg v => { cfg with stereoFps := v }, fun _ => rfl⟩

def imuRateHz : Setting ℤ :=
  ⟨"imu_rate_hz", asInt, (·.imuRateHz), fun cfg v => { cfg with imuRateHz := v }, fun _ => rfl⟩

def odometryStrategy : Setting String :=
  ⟨"odometry_strategy", asString, (·.odometryStrategy),
    fun cfg v => { cfg with odometryStrategy := v }, fun _ => rfl⟩

def poseOutputRateHz : Setting ℤ :=
  ⟨"pose_output_rate_hz", asInt, (·.poseOutputRateHz),
    fun cfg v => { cfg with poseOutputRateHz := v }, fun _ => rfl⟩

def memoryThresholdMb : Setting ℤ :=
  ⟨"memory_threshold_mb", asInt, (·.memoryThresholdMb),
    fun cfg v => { cfg with memoryThresholdMb := v }, fun _ => rfl⟩

def loopClosure : Setting Bool :=
  ⟨"loop_closure", asBool, (·.loopClosure), fun cfg v => { cfg with loopClosure := v },
    fun _ => rfl⟩

def databasePath : Setting String :=
  ⟨"database_path", asString, (·.databasePath), fun cfg v => { cfg with databasePath := v },
    fun _ => rfl⟩

def usbMaxSpeed : Setting String :=
  ⟨"usb_max_speed", asString, (·.usbMaxSpeed), fun cfg v => { cfg with usbMaxSpeed := v },
    fun _ => rfl⟩

def irDotProjectorMa : Setting ℤ :=
  ⟨"ir_dot_projector_ma", asInt, (·.irDotProjectorMa),
    fun cfg v => { cfg with irDotProjectorMa := v }, fun _ => rfl⟩

def irFloodLedMa : Setting ℤ :=
  ⟨"ir_flood_led_ma", asInt, (·.irFloodLedMa), fun cfg v => { cfg with irFloodLedMa := v },
    fun _ => rfl⟩

def slamMode : Setting String :=
  ⟨"slam_mode", asString, (·.slamMode), fun cfg v => { cfg with slamMode := v }, fun _ => rfl⟩

def imuRotationSensor : Setting String :=
  ⟨"imu_rotation_sensor", asString, (·.imuRotationSensor),
    fun cfg v => { cfg with imuRotationSensor := v }, fun _ => rfl⟩

end Setting

/-- The part under `try`, once there is a section `vslam`. -/
def readSettings (vslam : List (Yaml × Yaml)) : Reading :=
  ({} : Reading)
    |>.assign vslam .socketPath
    |>.assign vslam .stereoResolution
    |>.assign vslam .stereoFps
    |>.assign vslam .imuRateHz
    |>.assign vslam .odometryStrategy
    |>.assign vslam .poseOutputRateHz
    |>.assign vslam .memoryThresholdMb
    |>.assign vslam .loopClosure
    |>.assign vslam .databasePath
    |>.assign vslam .usbMaxSpeed
    |>.assign vslam .irDotProjectorMa
    |>.assign vslam .irFloodLedMa
    |>.assign vslam .slamMode
    |>.assign vslam .imuRotationSensor

/-- A file that is not there or is malformed leaves the defaults. So does a
document or a section that is not a mapping: it has no such keys, or looking one
up in it fails. A text on which Python's reader gives up has no document to read. -/
def loadConfig : YamlFile → SlamConfig
  | .document (.dict root) =>
    match Yaml.lookup "vslam" root with
    | some (.dict vslam) => (readSettings vslam).cfg
    | _ => {}
  | _ => {}

namespace Setting

variable {α : Type} (s : Setting α) (vslam : List (Yaml × Yaml))

/-- The setting is left out or can be converted. -/
def readable : Bool :=
  match Yaml.lookup s.key vslam with
  | some raw => (s.convert raw).isSome
  | none => true

/-- The value of the file when it is reached and can be converted. -/
def pick (going : Bool) (default : α) : α :=
  if going then ((Yaml.lookup s.key vslam).bind s.convert).getD default else default

theorem assign_eq (r : Reading) :
    r.assign vslam s = ⟨s.set r.cfg (s.pick vslam r.going (s.get r.cfg)),
      r.going && s.readable vslam⟩ := by
  obtain ⟨cfg, going⟩ := r
  cases going with
  | false => simp [Reading.assign, pick, s.set_get]
  | true =>
    cases hraw : Yaml.lookup s.key vslam with
    | none => simp [Reading.assign, pick, readable, hraw, s.set_get]
    | some raw => cases hconvert : s.convert raw <;>
        simp [Reading.assign, pick, readable, hraw, hconvert, s.set_get]

variable {s vslam} {default : Yaml} {a d : α} {going : Bool}

theorem pick_unreadable (h : s.readable vslam = false) : s.pick vslam going d = d := by
  unfold readable at h
  split at h
  · rename_i raw hraw
    simp only [Option.isSome_eq_false_iff, Option.isNone_iff_eq_none] at h
    simp [pick, hraw, h]
  · cases h

theorem pick_absent (h : Yaml.lookup s.key vslam = none) : s.pick vslam going d = d := by
  simp [pick, h]

theorem pick_getD (hdefault : s.convert default = some d)
    (h : s.convert (Yaml.getD vslam s.key default) = some a) : s.pick vslam true d = a := by
  cases hraw : Yaml.lookup s.key vslam with
  | none =>
    rw [Yaml.getD_of_absent hraw, hdefault] at h
    simpa [pick, hraw] using h
  | some raw =>
    rw [Yaml.getD_of_lookup hraw] at h
    simp [pick, hraw, h]

theorem readable_getD (h : s.convert (Yaml.getD vslam s.key default) = some a) :
    s.readable vslam = true := by
  cases hraw : Yaml.lookup s.key vslam with
  | none => simp [readable, hraw]
  | some raw =>
    rw [Yaml.getD_of_lookup hraw] at h
    simp [readable, hraw, h]

/-- A section in which the setting stands as it is, or with its default where it
was left out, is read alike. -/
theorem rewritten {after : List (Yaml × Yaml)} (hdefault : s.convert default = some d)
    (hafter : Yaml.lookup s.key after = some (Yaml.getD vslam s.key default)) :
    s.readable after = s.readable vslam ∧ ∀ going, s.pick after going d = s.pick vslam going d := by
  cases hraw : Yaml.lookup s.key vslam with
  | none =>
    rw [Yaml.getD_of_absent hraw] at hafter
    simp [readable, pick, hraw, hafter, hdefault]
  | some raw =>
    rw [Yaml.getD_of_lookup hraw] at hafter
    simp [readable, pick, hraw, hafter]

end Setting

section Reading

open Setting

/-- In the order of the reading. -/
def readables (vslam : List (Yaml × Yaml)) : List Bool :=
  [socketPath.readable vslam, stereoResolution.readable vslam, stereoFps.readable vslam,
    imuRateHz.readable vslam, odometryStrategy.readable vslam, poseOutputRateHz.readable vslam,
    memoryThresholdMb.readable vslam, loopClosure.readable vslam, databasePath.readable vslam,
    usbMaxSpeed.readable vslam, irDotProjectorMa.readable vslam, irFloodLedMa.readable vslam,
    slamMode.readable vslam, imuRotationSensor.readable vslam]

/-- The reading gets as far as the setting at this place. -/
def reached (vslam : List (Yaml × Yaml)) (place : ℕ) : Bool :=
  ((readables vslam).take place).foldl and true

theorem readSettings_eq (vslam : List (Yaml × Yaml)) : (readSettings vslam).cfg =
    { socketPath := socketPath.pick vslam (reached vslam 0) "/run/mower/vslam-pose.sock"
      stereoResolution := stereoResolution.pick vslam (reached vslam 1) "800p"
      stereoFps := stereoFps.pick vslam (reached vslam 2) 30
      imuRateHz := imuRateHz.pick vslam (reached vslam 3) 200
      odometryStrategy := odometryStrategy.pick vslam (reached vslam 4) "f2m"
      poseOutputRateHz := poseOutputRateHz.pick vslam (reached vslam 5) 20
      memoryThresholdMb := memoryThresholdMb.pick vslam (reached vslam 6) 6000
      loopClosure := loopClosure.pick vslam (reached vslam 7) true
      databasePath := databasePath.pick vslam (reached vslam 8) "/var/lib/mower/rtabmap.db"
      usbMaxSpeed := usbMaxSpeed.pick vslam (reached vslam 9) "SUPER"
      irDotProjectorMa := irDotProjectorMa.pick vslam (reached vslam 10) 750
      irFloodLedMa := irFloodLedMa.pick vslam (reached vslam 11) 200
      slamMode := slamMode.pick vslam (reached vslam 12) "mapping"
      imuRotationSensor :=
        imuRotationSensor.pick vslam (reached vslam 13) "game_rotation_vector" } := by
  simp only [readSettings, assign_eq]
  rfl

theorem reached_of_readable {vslam : List (Yaml × Yaml)} (h : ∀ b ∈ readables vslam, b = true)
    (place : ℕ) : reached vslam place = true := by
  have hall : ∀ bs : List Bool, (∀ b ∈ bs, b = true) → bs.foldl and true = true := by
    intro bs hbs
    induction bs with
    | nil => rfl
    | cons b bs ih =>
      obtain rfl := hbs b List.mem_cons_self
      exact ih fun b hb => hbs b (List.mem_cons_of_mem _ hb)
  exact hall _ fun b hb => h b (List.mem_of_mem_take hb)

end Reading

/-- The settings that both readers know have the same values. -/
structure SameSettings (c : VslamConfig) (cfg : SlamConfig) : Prop where
  socketPath : c.socketPath = cfg.socketPath
  stereoResolution : c.stereoResolution = cfg.stereoResolution
  stereoFps : c.stereoFps.toInt = cfg.stereoFps
  imuRateHz : c.imuRateHz.toInt = cfg.imuRateHz
  odometryStrategy : c.odometryStrategy = cfg.odometryStrategy
  poseOutputRateHz : c.poseOutputRateHz.toInt = cfg.poseOutputRateHz
  memoryThresholdMb : c.memoryThresholdMb.toInt = cfg.memoryThresholdMb
  loopClosure : c.loopClosure = cfg.loopClosure
  databasePath : c.databasePath = cfg.databasePath
  usbMaxSpeed : c.usbMaxSpeed = cfg.usbMaxSpeed
  irDotProjectorMa : c.irDotProjectorMa.toInt = cfg.irDotProjectorMa
  irFloodLedMa : c.irFloodLedMa.toInt = cfg.irFloodLedMa
  slamMode : c.slamMode = cfg.slamMode
  imuRotationSensor : c.imuRotationSensor = cfg.imuRotationSensor

def intKeys : List String :=
  ["stereo_fps", "imu_rate_hz", "pose_output_rate_hz", "memory_threshold_mb",
    "ir_dot_projector_ma", "ir_flood_led_ma"]

/-- The resolution, for which the two have different defaults, is given, and each
number that is given is an integer that the node can hold. -/
def PortableSettings (vslam : List (Yaml × Yaml)) : Prop :=
  (Yaml.lookup "stereo_resolution" vslam).isSome ∧
    ∀ key ∈ intKeys, ∀ raw, Yaml.lookup key vslam = some raw → ∃ i : ℤ, raw = .int i ∧ i < 2 ^ 31

def Portable : YamlFile → Prop
  | .missing => True
  | .document (.dict root) =>
    ∃ vslam, Yaml.lookup "vslam" root = some (.dict vslam) ∧ PortableSettings vslam
  | _ => False

section Agreement

variable {vslam : List (Yaml × Yaml)} {c : VslamConfig}

theorem asInt_toYaml {i : PyInt} (hint : ∃ j : ℤ, i.toYaml = .int j ∧ j < 2 ^ 31)
    (hi : 0 ≤ i.toInt) : asInt i.toYaml = some i.toInt := by
  obtain ⟨j, hj, hlt⟩ := hint
  cases i with
  | bool b => cases hj
  | int i =>
    obtain rfl := Yaml.int.inj hj
    simp only [PyInt.toInt] at hi
    simp only [PyInt.toYaml, asInt, PyInt.toInt]
    rw [if_pos (by omega)]

/-- A number that the node reads as Python does is an integer that it can hold. -/
theorem int_of_same {s : Setting ℤ} (hs : s.convert = asInt) {i : PyInt} {d : ℤ} {going : Bool}
    (hd : 1 < d ∧ d < 2 ^ 31) (hraw : Yaml.lookup s.key vslam = some i.toYaml)
    (hsame : i.toInt = s.pick vslam going d) : ∃ j : ℤ, i.toYaml = .int j ∧ j < 2 ^ 31 := by
  cases i with
  | int j =>
    by_cases hj : j < 2 ^ 31
    · exact ⟨j, rfl, hj⟩
    · have hconvert : s.convert (.int j) = none := by
        rw [hs, asInt, if_neg fun h => hj h.2]
      have hread : s.readable vslam = false := by
        simp [Setting.readable, hraw, PyInt.toYaml, hconvert]
      rw [Setting.pick_unreadable hread] at hsame
      simp only [PyInt.toInt] at hsame
      omega
  | bool b =>
    have hread : s.readable vslam = false := by
      simp [Setting.readable, hraw, PyInt.toYaml, hs, asInt]
    rw [Setting.pick_unreadable hread] at hsame
    cases b <;> simp only [PyInt.toInt] at hsame <;> simp at hsame <;> omega

theorem asInt_getD {key : String} {i : PyInt} {d : ℤ} (hp : PortableSettings vslam)
    (hkey : key ∈ intKeys) (hread : Yaml.getD vslam key (.int d) = i.toYaml)
    (hd : d < 2 ^ 31) (hi : 0 ≤ i.toInt) :
    asInt (Yaml.getD vslam key (.int d)) = some i.toInt := by
  rw [hread]
  apply asInt_toYaml _ hi
  cases hraw : Yaml.lookup key vslam with
  | none =>
    rw [Yaml.getD_of_absent hraw] at hread
    exact ⟨d, hread.symm, hd⟩
  | some raw =>
    rw [Yaml.getD_of_lookup hraw] at hread
    exact hread ▸ hp.2 key hkey raw hraw

theorem asString_getD {key s : String} {default : Yaml}
    (hread : Yaml.getD vslam key default = .str s) :
    asString (Yaml.getD vslam key default) = some s := by
  rw [hread]
  rfl

theorem sameSettings_of_portable (hread : c.Reads vslam) (hvalid : c.Valid)
    (hp : PortableSettings vslam) : SameSettings c (readSettings vslam).cfg := by
  have hsocket := asString_getD hread.socketPath
  have hresolution : asString (Yaml.getD vslam "stereo_resolution" (.str "800p")) =
      some c.stereoResolution := by
    obtain ⟨raw, hraw⟩ := Option.isSome_iff_exists.mp hp.1
    rw [Yaml.getD_of_lookup hraw, ← Yaml.getD_of_lookup hraw (.str "400p")]
    exact asString_getD hread.stereoResolution
  have hfps := asInt_getD hp (by decide) hread.stereoFps (by decide) hvalid.stereoFps.le
  have himu := asInt_getD hp (by decide) hread.imuRateHz (by decide) hvalid.imuRateHz.le
  have hodometry := asString_getD hread.odometryStrategy
  have hpose := asInt_getD hp (by decide) hread.poseOutputRateHz (by decide)
    hvalid.poseOutputRateHz.le
  have hmemory := asInt_getD hp (by decide) hread.memoryThresholdMb (by decide)
    hvalid.memoryThresholdMb.le
  have hloop : asBool (Yaml.getD vslam "loop_closure" (.bool true)) = some c.loopClosure := by
    rw [hread.loopClosure]
    rfl
  have hdatabase := asString_getD hread.databasePath
  have husb := asString_getD hread.usbMaxSpeed
  have hdot := asInt_getD hp (by decide) hread.irDotProjectorMa (by decide)
    hvalid.irDotProjectorMa.1
  have hflood := asInt_getD hp (by decide) hread.irFloodLedMa (by decide) hvalid.irFloodLedMa.1
  have hmode := asString_getD hread.slamMode
  have hsensor := asString_getD hread.imuRotationSensor
  have hreached : ∀ place, reached vslam place = true := by
    apply reached_of_readable
    simp only [readables, List.forall_mem_cons, List.not_mem_nil, false_imp_iff, implies_true,
      and_true]
    exact ⟨Setting.readable_getD hsocket, Setting.readable_getD hresolution,
      Setting.readable_getD hfps, Setting.readable_getD himu, Setting.readable_getD hodometry,
      Setting.readable_getD hpose, Setting.readable_getD hmemory, Setting.readable_getD hloop,
      Setting.readable_getD hdatabase, Setting.readable_getD husb, Setting.readable_getD hdot,
      Setting.readable_getD hflood, Setting.readable_getD hmode, Setting.readable_getD hsensor⟩
  rw [readSettings_eq]
  simp only [hreached]
  exact ⟨(Setting.pick_getD rfl hsocket).symm, (Setting.pick_getD rfl hresolution).symm,
    (Setting.pick_getD rfl hfps).symm, (Setting.pick_getD rfl himu).symm,
    (Setting.pick_getD rfl hodometry).symm, (Setting.pick_getD rfl hpose).symm,
    (Setting.pick_getD rfl hmemory).symm, (Setting.pick_getD rfl hloop).symm,
    (Setting.pick_getD rfl hdatabase).symm, (Setting.pick_getD rfl husb).symm,
    (Setting.pick_getD rfl hdot).symm, (Setting.pick_getD rfl hflood).symm,
    (Setting.pick_getD rfl hmode).symm, (Setting.pick_getD rfl hsensor).symm⟩

theorem portable_of_sameSettings (hread : c.Reads vslam)
    (hsame : SameSettings c (readSettings vslam).cfg) : PortableSettings vslam := by
  rw [readSettings_eq] at hsame
  constructor
  · -- left out, Python takes 400p and the node 800p
    by_contra habsent
    have hraw : Yaml.lookup "stereo_resolution" vslam = none := by simpa using habsent
    have hpython := hread.stereoResolution
    have hnode := hsame.stereoResolution
    rw [Yaml.getD_of_absent hraw] at hpython
    simp only at hnode
    rw [Setting.pick_absent hraw, ← Yaml.str.inj hpython] at hnode
    exact absurd hnode (by decide)
  · have hpresent : ∀ {key : String} {i : PyInt} {default : Yaml},
        Yaml.getD vslam key default = i.toYaml → ∀ raw, Yaml.lookup key vslam = some raw →
          raw = i.toYaml := by
      intro key i default hi raw hraw
      rwa [Yaml.getD_of_lookup hraw] at hi
    intro key hkey raw hraw
    simp only [intKeys, List.mem_cons, List.not_mem_nil, or_false] at hkey
    rcases hkey with rfl | rfl | rfl | rfl | rfl | rfl
    · obtain rfl := hpresent hread.stereoFps raw hraw
      exact int_of_same rfl (by decide) hraw hsame.stereoFps
    · obtain rfl := hpresent hread.imuRateHz raw hraw
      exact int_of_same rfl (by decide) hraw hsame.imuRateHz
    · obtain rfl := hpresent hread.poseOutputRateHz raw hraw
      exact int_of_same rfl (by decide) hraw hsame.poseOutputRateHz
    · obtain rfl := hpresent hread.memoryThresholdMb raw hraw
      exact int_of_same rfl (by decide) hraw hsame.memoryThresholdMb
    · obtain rfl := hpresent hread.irDotProjectorMa raw hraw
      exact int_of_same rfl (by decide) hraw hsame.irDotProjectorMa
    · obtain rfl := hpresent hread.irFloodLedMa raw hraw
      exact int_of_same rfl (by decide) hraw hsame.irFloodLedMa

theorem not_portable_nil : ¬ PortableSettings [] := fun h => by cases h.1

variable {py : PyText} {path : String}

/-- The node reads the section that Python reads. -/
theorem loadConfig_of_section {raw : Yaml}
    (h : Yaml.getD raw.entries "vslam" (.dict []) = .dict vslam) :
    loadConfig (.document raw) = (readSettings vslam).cfg := by
  have hnil : (readSettings []).cfg = {} := rfl
  cases raw with
  | dict root =>
    rw [Yaml.entries] at h
    cases hsection : Yaml.lookup "vslam" root with
    | none =>
      rw [Yaml.getD_of_absent hsection] at h
      rw [← Yaml.dict.inj h, hnil, loadConfig, hsection]
    | some found =>
      rw [Yaml.getD_of_lookup hsection] at h
      rw [loadConfig, hsection, h]
  | _ =>
    rw [← Yaml.dict.inj h, hnil]
    rfl

theorem portable_iff_section {raw : Yaml}
    (h : Yaml.getD raw.entries "vslam" (.dict []) = .dict vslam) :
    Portable (.document raw) ↔ PortableSettings vslam := by
  cases raw with
  | dict root =>
    rw [Yaml.entries] at h
    cases hsection : Yaml.lookup "vslam" root with
    | none =>
      rw [Yaml.getD_of_absent hsection] at h
      obtain rfl := Yaml.dict.inj h
      simp [Portable, hsection, not_portable_nil]
    | some found =>
      rw [Yaml.getD_of_lookup hsection] at h
      simp [Portable, hsection, h]
  | _ =>
    obtain rfl := Yaml.dict.inj h
    simp [Portable, not_portable_nil]

/-- The two readers agree on every file that Python accepts and that gives the
resolution and no number beyond what the node can hold. -/
theorem loaders_agree_iff {file : YamlFile} (h : loadVslamConfig py path file = .ok c) :
    SameSettings c (loadConfig file) ↔ Portable file := by
  cases file with
  | missing =>
    obtain rfl := Except.ok.inj h
    exact ⟨fun _ => trivial, fun _ => by constructor <;> rfl⟩
  | malformed message => simp [loadVslamConfig, refuse] at h
  | raised error => simp [loadVslamConfig] at h
  | document raw =>
    obtain ⟨vslam, hvslam, hread, -, hvalid⟩ := loadVslamConfig_document h
    rw [loadConfig_of_section hvslam, portable_iff_section hvslam]
    exact ⟨portable_of_sameSettings hread, sameSettings_of_portable hread hvalid⟩

/-- A file that gives the resolution and one of the rates. -/
def fullResolution : YamlFile :=
  .document (.dict [(.str "vslam", .dict [(.str "stereo_resolution", .str "720p"),
    (.str "stereo_fps", .int 15)])])

theorem loaders_agree_fullResolution :
    SameSettings { stereoResolution := "720p", stereoFps := .int 15 }
      (loadConfig fullResolution) := by
  have h : loadVslamConfig .plain "/etc/mower/vslam.yaml" fullResolution =
    .ok { stereoResolution := "720p", stereoFps := .int 15 } := rfl
  exact (loaders_agree_iff h).mpr ⟨_, rfl, rfl, by simp [intKeys, Yaml.lookup]⟩

/-- A file that only says how the map is used. -/
def localizationOnly : YamlFile :=
  .document (.dict [(.str "vslam", .dict [(.str "slam_mode", .str "localization")])])

theorem loaders_disagree_localizationOnly :
    ∃ c, loadVslamConfig .plain "/etc/mower/vslam.yaml" localizationOnly = .ok c ∧
      ¬ SameSettings c (loadConfig localizationOnly) := by
  refine ⟨{ stereoResolution := "400p", slamMode := "localization" }, rfl, fun h => ?_⟩
  have hresolution := h.stereoResolution
  revert hresolution
  decide

end Agreement

end MowerRover.Vslam
