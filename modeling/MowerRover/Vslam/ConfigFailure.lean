import MowerRover.Assignments
import MowerRover.Vslam.SlamConfig

/-!
# A configuration that is read in part

The reading of the settings with yaml-cpp as it is: what a node is and what can
be converted are its matter. An exception is caught around all assignments and
reported with the words that the defaults are used.
-/

namespace MowerRover.Vslam

open Zone (YamlFile)

/-- yaml-cpp, as far as the node uses it; an error is the text of a `YAML::Exception`. -/
structure YamlCpp where
  Node : Type
  /-- `node[key]` -/
  subscript : Node → String → Except String Node
  /-- `if (node)` -/
  isDefined : Node → Bool
  asString : Node → Except String String
  asInt : Node → Except String ℤ
  asBool : Node → Except String Bool

/-- The path that is given, and what opening and parsing the file gives. -/
inductive ConfigSource (yaml : YamlCpp)
  | noPath
  | closed
  | loaded (root : Except String yaml.Node)

/-- What is written to the log; all but `loaded` end with `using defaults`. -/
inductive ConfigLog
  | noPath
  | cannotOpen
  | noSection
  | loaded
  | parseError (message : String)
  deriving DecidableEq, Repr

/-- `if (vslam[key])`, and the conversion of `vslam[key]`. -/
def YamlCpp.find {α : Type} (yaml : YamlCpp) (convert : yaml.Node → Except String α)
    (vslam : yaml.Node) (key : String) : Found α :=
  match yaml.subscript vslam key with
  | .error message => .failed message
  | .ok node =>
    if yaml.isDefined node then
      match convert node with
      | .ok a => .value a
      | .error message => .failed message
    else .absent

/-- A setting as a part of the configuration. -/
def Setting.part {α : Type} (s : Setting α) (h : ∀ cfg a, s.get (s.set cfg a) = a) :
    Part SlamConfig α :=
  ⟨s.get, s.set, h, s.set_get⟩

section Load

variable (yaml : YamlCpp)

/-- The assignments under `try`. -/
def assignments (vslam : yaml.Node) : List (Assignment SlamConfig) :=
  [⟨_, Setting.socketPath.part fun _ _ => rfl, yaml.find yaml.asString vslam "socket_path"⟩,
    ⟨_, Setting.stereoResolution.part fun _ _ => rfl,
      yaml.find yaml.asString vslam "stereo_resolution"⟩,
    ⟨_, Setting.stereoFps.part fun _ _ => rfl, yaml.find yaml.asInt vslam "stereo_fps"⟩,
    ⟨_, Setting.imuRateHz.part fun _ _ => rfl, yaml.find yaml.asInt vslam "imu_rate_hz"⟩,
    ⟨_, Setting.odometryStrategy.part fun _ _ => rfl,
      yaml.find yaml.asString vslam "odometry_strategy"⟩,
    ⟨_, Setting.poseOutputRateHz.part fun _ _ => rfl,
      yaml.find yaml.asInt vslam "pose_output_rate_hz"⟩,
    ⟨_, Setting.memoryThresholdMb.part fun _ _ => rfl,
      yaml.find yaml.asInt vslam "memory_threshold_mb"⟩,
    ⟨_, Setting.loopClosure.part fun _ _ => rfl, yaml.find yaml.asBool vslam "loop_closure"⟩,
    ⟨_, Setting.databasePath.part fun _ _ => rfl, yaml.find yaml.asString vslam "database_path"⟩,
    ⟨_, Setting.usbMaxSpeed.part fun _ _ => rfl, yaml.find yaml.asString vslam "usb_max_speed"⟩,
    ⟨_, Setting.irDotProjectorMa.part fun _ _ => rfl,
      yaml.find yaml.asInt vslam "ir_dot_projector_ma"⟩,
    ⟨_, Setting.irFloodLedMa.part fun _ _ => rfl, yaml.find yaml.asInt vslam "ir_flood_led_ma"⟩,
    ⟨_, Setting.slamMode.part fun _ _ => rfl, yaml.find yaml.asString vslam "slam_mode"⟩,
    ⟨_, Setting.imuRotationSensor.part fun _ _ => rfl,
      yaml.find yaml.asString vslam "imu_rotation_sensor"⟩]

/-- `load_config`, with the line that it logs. -/
def loadConfigLogged : ConfigSource yaml → SlamConfig × ConfigLog
  | .noPath => ({}, .noPath)
  | .closed => ({}, .cannotOpen)
  | .loaded (.error message) => ({}, .parseError message)
  | .loaded (.ok root) =>
    match yaml.subscript root "vslam" with
    | .error message => ({}, .parseError message)
    | .ok vslam =>
      if !yaml.isDefined vslam then ({}, .noSection)
      else
        match assignAll (assignments yaml vslam) {} with
        | (cfg, none) => (cfg, .loaded)
        | (cfg, some message) => (cfg, .parseError message)

/-- The section `vslam`, when there is one. -/
inductive HasSection : ConfigSource yaml → yaml.Node → Prop
  | mk {root vslam : yaml.Node} (hsubscript : yaml.subscript root "vslam" = .ok vslam)
      (hdefined : yaml.isDefined vslam = true) : HasSection (.loaded (.ok root)) vslam

/-- The settings are the defaults, or every setting of the file has the value of the file; and they
are the defaults when an error is reported. -/
structure AllOrNothing (source : ConfigSource yaml) : Prop where
  whole : (loadConfigLogged yaml source).1 = {} ∨ ∀ vslam, HasSection yaml source vslam →
    ∀ a ∈ assignments yaml vslam, a.Holds (loadConfigLogged yaml source).1
  defaults : ∀ message, (loadConfigLogged yaml source).2 = .parseError message →
    (loadConfigLogged yaml source).1 = {}

variable {yaml} {source : ConfigSource yaml} {vslam : yaml.Node}

theorem assignments_apart (vslam : yaml.Node) : PairwiseApart (assignments yaml vslam) := by
  unfold PairwiseApart assignments
  simp only [List.pairwise_cons, List.forall_mem_cons, List.not_mem_nil, false_imp_iff,
    implies_true,
    List.Pairwise.nil, and_true]
  (repeat' apply And.intro) <;> exact ⟨fun _ _ => rfl, fun _ _ => rfl⟩

/-- Every setting of the section can be converted, or those that are read before the first that
cannot have the values of the defaults. -/
def ConvertsOrKeeps (vslam : yaml.Node) : Prop :=
  (∀ a ∈ assignments yaml vslam, a.succeeds = true) ∨
    ∀ a ∈ (assignments yaml vslam).takeWhile Assignment.succeeds, a.Keeps {}

theorem loadConfigLogged_of_no_section (h : ∀ vslam, ¬ HasSection yaml source vslam) :
    (loadConfigLogged yaml source).1 = {} := by
  match source with
  | .noPath | .closed | .loaded (.error _) => rfl
  | .loaded (.ok root) =>
    rw [loadConfigLogged]
    cases hsubscript : yaml.subscript root "vslam" with
    | error message => rfl
    | ok vslam =>
      have hundefined : yaml.isDefined vslam = false := by
        by_contra hdefined
        exact h vslam ⟨hsubscript, by simpa using hdefined⟩
      simp [hundefined]

theorem loadConfigLogged_of_section (h : HasSection yaml source vslam) :
    (loadConfigLogged yaml source).1 = (assignAll (assignments yaml vslam) {}).1 ∧
      ((∃ message, (loadConfigLogged yaml source).2 = .parseError message) ↔
        (assignAll (assignments yaml vslam) {}).2 ≠ none) := by
  obtain ⟨hsubscript, hdefined⟩ := h
  rw [loadConfigLogged, hsubscript]
  dsimp only
  rw [hdefined, Bool.not_true, if_neg Bool.false_ne_true]
  cases hassign : assignAll (assignments yaml vslam) {} with
  | mk cfg failure => cases failure <;> simp

theorem hasSection_unique {other : yaml.Node} (h : HasSection yaml source vslam)
    (h' : HasSection yaml source other) : other = vslam := by
  cases h with
  | mk hsubscript hdefined =>
    cases h' with
    | mk hsubscript' hdefined' => exact Except.ok.inj (hsubscript'.symm.trans hsubscript)

theorem allOrNothing_of_section (h : HasSection yaml source vslam) :
    AllOrNothing yaml source ↔ ConvertsOrKeeps vslam := by
  obtain ⟨hcfg, hlog⟩ := loadConfigLogged_of_section h
  have hapart := assignments_apart vslam
  constructor
  · intro hall
    by_cases hok : ∀ a ∈ assignments yaml vslam, a.succeeds = true
    · exact .inl hok
    · right
      obtain ⟨message, hmessage⟩ := hlog.mpr (mt assignAll_snd_eq_none_iff.mp hok)
      rw [← assignAll_fst_eq_iff hapart, ← hcfg]
      exact hall.defaults message hmessage
  · rintro (hok | hkeeps)
    · constructor
      · right
        intro other hother
        obtain rfl := hasSection_unique h hother
        rw [hcfg]
        exact holds_assignAll hapart hok
      · intro message hmessage
        exact absurd (assignAll_snd_eq_none_iff.mpr hok) (hlog.mp ⟨message, hmessage⟩)
    · have hdefaults := hcfg.trans ((assignAll_fst_eq_iff hapart).mpr hkeeps)
      exact ⟨.inl hdefaults, fun _ _ => hdefaults⟩

/-- Reading is all or nothing exactly when in the section, if there is one, every setting can be
converted or those before the first that cannot have the values of the defaults. -/
theorem loadConfig_allOrNothing_iff (yaml : YamlCpp) (source : ConfigSource yaml) :
    AllOrNothing yaml source ↔ ∀ vslam, HasSection yaml source vslam → ConvertsOrKeeps vslam := by
  by_cases hsection : ∃ vslam, HasSection yaml source vslam
  · obtain ⟨vslam, h⟩ := hsection
    rw [allOrNothing_of_section h]
    constructor
    · intro hearly other hother
      rwa [hasSection_unique h hother]
    · intro hall
      exact hall vslam h
  · have hnone : ∀ vslam, ¬ HasSection yaml source vslam := fun vslam h => hsection ⟨vslam, h⟩
    have hdefaults := loadConfigLogged_of_no_section hnone
    constructor
    · intro _ vslam h
      exact absurd h (hnone vslam)
    · intro _
      exact ⟨.inl hdefaults, fun _ _ => hdefaults⟩

end Load

def convertWith {α : Type} (convert : Yaml → Option α) (node : Option Yaml) : Except String α :=
  match node.bind convert with
  | some a => .ok a
  | none => .error "bad conversion"

/-- Documents as they are elsewhere, with undefined nodes. -/
def plainYaml : YamlCpp where
  Node := Option Yaml
  subscript
    | some (.dict entries), key => .ok (Yaml.lookup key entries)
    | none, _ | some .null, _ | some (.list _), _ => .ok none
    | some (.bool _), _ | some (.int _), _ | some (.float _), _ | some (.str _), _ =>
      .error "operator[] call on a scalar"
  isDefined := Option.isSome
  asString := convertWith asString
  asInt := convertWith asInt
  asBool := convertWith asBool

def sourceOf : YamlFile → ConfigSource plainYaml
  | .missing => .closed
  | .malformed message => .loaded (.error message)
  | .raised error => .loaded (.error error.toPyError.str)
  | .document raw => .loaded (.ok (some raw))

section Plain

variable {vslam : List (Yaml × Yaml)}

/-- What is still to be assigned, after what has been read. -/
def Reading.finish (r : Reading) (as : List (Assignment SlamConfig)) : SlamConfig :=
  if r.going then (assignAll as r.cfg).1 else r.cfg

theorem Reading.finish_cons {α : Type} {r : Reading} {as : List (Assignment SlamConfig)}
    {found : Found α} (s : Setting α) (h : ∀ cfg a, s.get (s.set cfg a) = a)
    (hfound : found = plainYaml.find (convertWith s.convert) (some (.dict vslam)) s.key) :
    r.finish (⟨_, s.part h, found⟩ :: as) = (r.assign vslam s).finish as := by
  subst hfound
  obtain ⟨cfg, going⟩ := r
  cases going with
  | false => rfl
  | true =>
    rw [Reading.finish, Reading.assign, if_pos rfl, if_pos rfl, assignAll]
    cases hraw : Yaml.lookup s.key vslam with
    | none => simp [YamlCpp.find, plainYaml, hraw, Reading.finish]
    | some raw =>
      cases hconvert : s.convert raw with
      | none =>
        simp [YamlCpp.find, plainYaml, hraw, convertWith, hconvert, Reading.finish]
      | some a =>
        simp [YamlCpp.find, plainYaml, hraw, convertWith, hconvert, Reading.finish, Setting.part]

theorem Reading.finish_nil (r : Reading) : r.finish [] = r.cfg := by
  unfold finish
  split_ifs <;> rfl

theorem assignAll_assignments (vslam : List (Yaml × Yaml)) :
    (assignAll (assignments plainYaml (some (.dict vslam))) {}).1 = (readSettings vslam).cfg := by
  open Reading in
  calc (assignAll (assignments plainYaml (some (.dict vslam))) {}).1
      = finish {} (assignments plainYaml (some (.dict vslam))) := rfl
    _ = _ := finish_cons Setting.socketPath _ rfl
    _ = _ := finish_cons Setting.stereoResolution _ rfl
    _ = _ := finish_cons Setting.stereoFps _ rfl
    _ = _ := finish_cons Setting.imuRateHz _ rfl
    _ = _ := finish_cons Setting.odometryStrategy _ rfl
    _ = _ := finish_cons Setting.poseOutputRateHz _ rfl
    _ = _ := finish_cons Setting.memoryThresholdMb _ rfl
    _ = _ := finish_cons Setting.loopClosure _ rfl
    _ = _ := finish_cons Setting.databasePath _ rfl
    _ = _ := finish_cons Setting.usbMaxSpeed _ rfl
    _ = _ := finish_cons Setting.irDotProjectorMa _ rfl
    _ = _ := finish_cons Setting.irFloodLedMa _ rfl
    _ = _ := finish_cons Setting.slamMode _ rfl
    _ = _ := finish_cons Setting.imuRotationSensor _ rfl
    _ = _ := finish_nil _

/-- The reading of documents is the reading with yaml-cpp, where the two resolve scalars alike. -/
theorem loadConfig_eq (file : YamlFile) :
    loadConfig file = (loadConfigLogged plainYaml (sourceOf file)).1 := by
  match file with
  | .missing | .malformed _ | .raised _ => rfl
  | .document raw =>
    cases raw with
    | dict root =>
      cases hfound : Yaml.lookup "vslam" root with
      | none =>
        rw [loadConfig, hfound, loadConfigLogged_of_no_section]
        rintro vslam ⟨hsubscript, hdefined⟩
        obtain rfl : Yaml.lookup "vslam" root = vslam := Except.ok.inj hsubscript
        rw [hfound] at hdefined
        cases hdefined
      | some found =>
        have hsection : HasSection plainYaml (sourceOf (.document (.dict root))) (some found) :=
          ⟨congrArg Except.ok hfound, rfl⟩
        rw [loadConfig, hfound, (loadConfigLogged_of_section hsection).1]
        cases found with
        | dict vslam => exact (assignAll_assignments vslam).symm
        | _ => rfl
    | _ => rfl

end Plain

/-- A socket, and a rate that is no number. -/
def halfRead : YamlFile :=
  .document (.dict [(.str "vslam", .dict [(.str "socket_path", .str "/tmp/pose.sock"),
    (.str "stereo_fps", .str "fast")])])

/-- The socket stays, although the log says that the defaults are used. -/
theorem halfRead_not_allOrNothing :
    loadConfigLogged plainYaml (sourceOf halfRead) =
      ({ socketPath := "/tmp/pose.sock" }, .parseError "bad conversion") ∧
    ¬ AllOrNothing plainYaml (sourceOf halfRead) := by
  have hread : loadConfigLogged plainYaml (sourceOf halfRead) =
      ({ socketPath := "/tmp/pose.sock" }, .parseError "bad conversion") := by
    decide
  refine ⟨hread, fun h => ?_⟩
  have hdefaults := h.defaults "bad conversion" (by rw [hread])
  rw [hread] at hdefaults
  exact absurd hdefaults (by decide)

end MowerRover.Vslam
