import MowerRover.Cli.ZoneFile
import MowerRover.Vslam.SlamConfig
import MowerRover.YamlPath

/-!
# What a zone activation leaves alone

Two settings are meant to change. The file is however written anew from the
settings that the loader knows, so that everything else in it is lost, and what
it leaves out is written with the defaults of the loader.
-/

namespace MowerRover.Cli

open Effects Config Probe Numeric
open Zone (YamlFile zoneIdMatches)
open Vslam (SlamConfig Setting loadConfig readSettings readables reached)

/-- Python's `v == w` for values without entries, not-a-number being itself. -/
def SameValue (v w : Yaml) : Prop := v = w ∨ ∃ x, number v = some x ∧ number w = some x

/-- A section stays a section, its entries having places of their own; any other
value stays the same. -/
def KeptAs : Yaml → Yaml → Prop
  | .dict _, .dict _ => True
  | v, w => SameValue v w

/-- The two places that an activation is to change. -/
def changedPaths : List (List Yaml) :=
  [[.str "vslam", .str "database_path"], [.str "vslam", .str "slam_mode"]]

def AtFile : YamlFile → List Yaml → Yaml → Prop
  | .document doc, path, v => Yaml.At doc path v
  | _, _, _ => False

/-- Every other key and section is still there with its value, the node has the
same values for its other settings, and the probe gives the same verdict. -/
structure Frame (py : PyText) (before : Yaml) (after : YamlFile) : Prop where
  kept : ∀ path v, Yaml.At before path v → path ≠ [] → path ∉ changedPaths →
    ∃ w, AtFile after path w ∧ KeptAs v w
  node : { loadConfig after with
    databasePath := (loadConfig (.document before)).databasePath
    slamMode := (loadConfig (.document before)).slamMode } = loadConfig (.document before)
  verdict : checkVslamParams py vslamConfigPath after =
    checkVslamParams py vslamConfigPath (.document before)

def OnlyKeys (keys : List String) (entries : List (Yaml × Yaml)) : Prop :=
  ∀ e ∈ entries, ∃ key ∈ keys, e.1 = .str key

def extrinsicsKeys : List String := ["pos_x", "pos_y", "pos_z", "roll", "pitch", "yaw"]

def bridgeKeys : List String := ["serial_device", "source_system", "source_component"]

/-- The other settings with the defaults of the loader. -/
def otherSettings : List (String × Yaml) :=
  [("odometry_strategy", .str "f2m"), ("stereo_resolution", .str "400p"), ("stereo_fps", .int 30),
    ("imu_rate_hz", .int 200), ("imu_rotation_sensor", .str "game_rotation_vector"),
    ("pose_output_rate_hz", .int 20), ("memory_threshold_mb", .int 6000),
    ("loop_closure", .bool true), ("socket_path", .str "/run/mower/vslam-pose.sock"),
    ("usb_max_speed", .str "SUPER"), ("ir_dot_projector_ma", .int 750),
    ("ir_flood_led_ma", .int 200)]

def vslamKeys : List String :=
  otherSettings.map Prod.fst ++ ["database_path", "slam_mode", "extrinsics"]

/-- A number that a double holds exactly. -/
def ExactDouble (raw : Yaml) : Prop := ∃ x, number raw = some x ∧ pyFloat raw = .ok x

/-- Extrinsics that are left out, or a mapping with known keys and exact numbers. -/
def LosslessExtrinsics : Option Yaml → Prop
  | none => True
  | some (.dict entries) => OnlyKeys extrinsicsKeys entries ∧
    ∀ key ∈ extrinsicsKeys, ∀ raw, Yaml.lookup key entries = some raw → ExactDouble raw
  | some _ => False

def LosslessBridge : Option Yaml → Prop
  | none => True
  | some (.dict entries) => OnlyKeys bridgeKeys entries
  | some _ => False

/-- Nothing but known keys, none of the sections null, and the resolution given. -/
def Lossless : Yaml → Prop
  | .dict root => OnlyKeys ["vslam", "bridge"] root ∧ LosslessBridge (Yaml.lookup "bridge" root) ∧
    ∃ vslam, Yaml.lookup "vslam" root = some (.dict vslam) ∧ OnlyKeys vslamKeys vslam ∧
      (Yaml.lookup "stereo_resolution" vslam).isSome ∧
        LosslessExtrinsics (Yaml.lookup "extrinsics" vslam)
  | _ => False

section Document

variable {py : PyText} {c : Config.VslamConfig} {vslam : List (Yaml × Yaml)}

theorem OnlyKeys.lookup {keys : List String} {entries : List (Yaml × Yaml)}
    (h : OnlyKeys keys entries) {key : String} (hkey : key ∉ keys) :
    Yaml.lookup key entries = none := by
  cases hraw : Yaml.lookup key entries with
  | none => rfl
  | some v =>
    obtain ⟨k, hk, heq⟩ := h _ (Yaml.present_str_iff.mpr hraw).mem
    obtain rfl := Yaml.str.inj heq
    exact absurd hk hkey

theorem isLeaf_toYaml (i : PyInt) : Yaml.IsLeaf i.toYaml := by
  cases i <;> trivial

theorem lookup_rewritten (hread : c.Reads vslam) (path mode : String) : ∀ s ∈ otherSettings,
    Yaml.lookup s.1 (pointAt path mode c).entries = some (Yaml.getD vslam s.1 s.2) ∧
      Yaml.IsLeaf (Yaml.getD vslam s.1 s.2) := by
  simp only [otherSettings, List.forall_mem_cons, List.not_mem_nil, false_imp_iff, implies_true,
    and_true, hread.odometryStrategy, hread.stereoResolution, hread.stereoFps, hread.imuRateHz,
    hread.imuRotationSensor, hread.poseOutputRateHz, hread.memoryThresholdMb, hread.loopClosure,
    hread.socketPath, hread.usbMaxSpeed, hread.irDotProjectorMa, hread.irFloodLedMa, isLeaf_toYaml,
    Config.VslamConfig.entries, pointAt, Yaml.lookup_cons]
  simp [Yaml.IsLeaf]

/-- The node reads the same values for the other settings, once the resolution is given. -/
theorem readSettings_rewritten (hread : c.Reads vslam)
    (hresolution : (Yaml.lookup "stereo_resolution" vslam).isSome) (path mode : String) :
    { (readSettings (pointAt path mode c).entries).cfg with
      databasePath := (readSettings vslam).cfg.databasePath
      slamMode := (readSettings vslam).cfg.slamMode } = (readSettings vslam).cfg := by
  have hwritten := lookup_rewritten hread path mode
  simp only [otherSettings, List.forall_mem_cons] at hwritten
  obtain ⟨⟨hodometry, -⟩, ⟨hstereo, -⟩, ⟨hfps, -⟩, ⟨himu, -⟩, ⟨hsensor, -⟩, ⟨hpose, -⟩,
    ⟨hmemory, -⟩, ⟨hloop, -⟩, ⟨hsocket, -⟩, ⟨husb, -⟩, ⟨hdot, -⟩, ⟨hflood, -⟩, -⟩ := hwritten
  have hresolution' : Yaml.lookup "stereo_resolution" (pointAt path mode c).entries =
      some (Yaml.getD vslam "stereo_resolution" (.str "800p")) := by
    obtain ⟨raw, hraw⟩ := Option.isSome_iff_exists.mp hresolution
    rw [hstereo, Yaml.getD_of_lookup hraw, Yaml.getD_of_lookup hraw]
  have hodometry := Setting.rewritten (s := .odometryStrategy) rfl hodometry
  have hstereo := Setting.rewritten (s := .stereoResolution) rfl hresolution'
  have hfps := Setting.rewritten (s := .stereoFps) rfl hfps
  have himu := Setting.rewritten (s := .imuRateHz) rfl himu
  have hsensor := Setting.rewritten (s := .imuRotationSensor) rfl hsensor
  have hpose := Setting.rewritten (s := .poseOutputRateHz) rfl hpose
  have hmemory := Setting.rewritten (s := .memoryThresholdMb) rfl hmemory
  have hloop := Setting.rewritten (s := .loopClosure) rfl hloop
  have hsocket := Setting.rewritten (s := .socketPath) rfl hsocket
  have husb := Setting.rewritten (s := .usbMaxSpeed) rfl husb
  have hdot := Setting.rewritten (s := .irDotProjectorMa) rfl hdot
  have hflood := Setting.rewritten (s := .irFloodLedMa) rfl hflood
  -- the two that change can be read in both
  have hdatabase : Setting.databasePath.readable (pointAt path mode c).entries =
      Setting.databasePath.readable vslam :=
    Eq.trans (by rfl) (Setting.readable_getD (Vslam.asString_getD hread.databasePath)).symm
  have hmode : Setting.slamMode.readable (pointAt path mode c).entries =
      Setting.slamMode.readable vslam :=
    Eq.trans (by rfl) (Setting.readable_getD (Vslam.asString_getD hread.slamMode)).symm
  have hreadables : readables (pointAt path mode c).entries = readables vslam := by
    simp only [readables, hsocket.1, hstereo.1, hfps.1, himu.1, hodometry.1, hpose.1, hmemory.1,
      hloop.1, hdatabase, husb.1, hdot.1, hflood.1, hmode, hsensor.1]
  have hreached : ∀ place, reached (pointAt path mode c).entries place = reached vslam place := by
    intro place
    rw [reached, hreadables, reached]
  rw [Vslam.readSettings_eq, Vslam.readSettings_eq]
  simp only [hreached, hsocket.2, hstereo.2, hfps.2, himu.2, hodometry.2, hpose.2, hmemory.2,
    hloop.2, husb.2, hdot.2, hflood.2, hsensor.2]

/-- A resolution that was left out is written as the loader fills it in, which is
not what the node would have used. -/
theorem resolution_given (hread : c.Reads vslam) {path mode : String}
    (hnode : (readSettings (pointAt path mode c).entries).cfg.stereoResolution =
      (readSettings vslam).cfg.stereoResolution) :
    (Yaml.lookup "stereo_resolution" vslam).isSome := by
  by_contra habsent
  have hraw : Yaml.lookup "stereo_resolution" vslam = none := by simpa using habsent
  have hpython := hread.stereoResolution
  rw [Yaml.getD_of_absent hraw] at hpython
  have hafter : (readSettings (pointAt path mode c).entries).cfg.stereoResolution =
      c.stereoResolution := by
    rw [Vslam.readSettings_eq]
    rfl
  have hbefore : (readSettings vslam).cfg.stereoResolution = "800p" := by
    rw [Vslam.readSettings_eq]
    exact Setting.pick_absent hraw
  rw [hafter, hbefore, ← Yaml.str.inj hpython] at hnode
  exact absurd hnode (by decide)

theorem at_toDict_vslam {place : List Yaml} {w : Yaml} :
    Yaml.At c.toDict (.str "vslam" :: place) w ↔ Yaml.At (.dict c.entries) place w := by
  rw [Config.VslamConfig.toDict, Yaml.at_dict_cons_iff]
  simp [Yaml.present_str_iff, Yaml.lookup_cons]

theorem at_toDict_bridge {place : List Yaml} {w : Yaml} :
    Yaml.At c.toDict (.str "bridge" :: place) w ↔ Yaml.At (.dict c.bridge.entries) place w := by
  rw [Config.VslamConfig.toDict, Yaml.at_dict_cons_iff]
  simp [Yaml.present_str_iff, Yaml.lookup_cons]

theorem at_entries_extrinsics {place : List Yaml} {w : Yaml} :
    Yaml.At (.dict c.entries) (.str "extrinsics" :: place) w ↔
      Yaml.At (.dict c.extrinsics.entries) place w := by
  rw [Yaml.at_dict_cons_iff]
  simp [Yaml.present_str_iff, Config.VslamConfig.entries, Yaml.lookup_cons]

theorem key_of_at {entries : List (Yaml × Yaml)} {keys : List String} (h : OnlyKeys keys entries)
    {key w : Yaml} {place : List Yaml} (hat : Yaml.At (.dict entries) (key :: place) w) :
    ∃ k ∈ keys, key = .str k := by
  obtain ⟨v, hpresent, -⟩ := Yaml.at_dict_cons_iff.mp hat
  exact h _ hpresent.mem

theorem onlyKeys_toDict : OnlyKeys ["vslam", "bridge"] c.toDict.entries := by
  simp [OnlyKeys, Config.VslamConfig.toDict, Yaml.entries]

theorem onlyKeys_entries : OnlyKeys vslamKeys c.entries := by
  simp [OnlyKeys, Config.VslamConfig.entries, vslamKeys, otherSettings]

theorem onlyKeys_extrinsics {e : Extrinsics} : OnlyKeys extrinsicsKeys e.entries := by
  simp [OnlyKeys, Extrinsics.entries, extrinsicsKeys]

theorem onlyKeys_bridge {b : BridgeConfig} : OnlyKeys bridgeKeys b.entries := by
  simp [OnlyKeys, BridgeConfig.entries, bridgeKeys]

section Kept

variable {entries entries' : List (Yaml × Yaml)} {place : List Yaml} {v : Yaml}

theorem kept_leaf {key : String} {raw w : Yaml} (hleaf : Yaml.IsLeaf raw)
    (hafter : Yaml.lookup key entries' = some w) (hsame : SameValue raw w)
    (hat : Yaml.At raw place v) :
    ∃ w, Yaml.At (.dict entries') (.str key :: place) w ∧ KeptAs v w := by
  obtain ⟨rfl, rfl⟩ := hat.of_leaf hleaf
  refine ⟨w, Yaml.at_str hafter (.here w), ?_⟩
  cases v with
  | dict entries => exact hleaf.elim
  | _ => exact hsame

theorem kept_mapping {keys : List String} (honly : OnlyKeys keys entries)
    (hat : Yaml.At (.dict entries) place v)
    (hkeys : ∀ key ∈ keys, ∀ raw, Yaml.lookup key entries = some raw → ∀ rest,
      place = .str key :: rest → Yaml.At raw rest v →
        ∃ w, Yaml.At (.dict entries') (.str key :: rest) w ∧ KeptAs v w) :
    ∃ w, Yaml.At (.dict entries') place w ∧ KeptAs v w := by
  cases place with
  | nil =>
    cases hat
    exact ⟨_, .here _, trivial⟩
  | cons key rest =>
    obtain ⟨k, hk, rfl⟩ := key_of_at honly hat
    obtain ⟨raw, hpresent, hat⟩ := Yaml.at_dict_cons_iff.mp hat
    exact hkeys k hk raw (Yaml.present_str_iff.mp hpresent) rest rfl hat

theorem extrinsics_rewritten {e : Extrinsics} (h : coerceExtrinsics (.dict entries) = .ok e) :
    ∀ key ∈ extrinsicsKeys, ∃ default f, coerceOffset entries key default = .ok f ∧
      Yaml.lookup key e.entries = some (.float f) := by
  simp only [coerceExtrinsics, bind_eq_ok] at h
  obtain ⟨x, hx, y, hy, z, hz, roll, hroll, pitch, hpitch, yaw, hyaw, h⟩ := h
  obtain rfl := Except.ok.inj h
  simp only [extrinsicsKeys, List.forall_mem_cons, Extrinsics.entries, Yaml.lookup_cons]
  exact ⟨⟨_, x, hx, by simp⟩, ⟨_, y, hy, by simp⟩, ⟨_, z, hz, by simp⟩, ⟨_, roll, hroll, by simp⟩,
    ⟨_, pitch, hpitch, by simp⟩, ⟨_, yaw, hyaw, by simp⟩, by simp⟩

theorem coerceOffset_of_number {key : String} {raw : Yaml} {default x : PyFloat}
    (hraw : Yaml.lookup key entries = some raw) (hnumber : number raw = some x) :
    coerceOffset entries key default = pyFloat raw := by
  rw [coerceOffset, Yaml.getD_of_lookup hraw]
  cases raw with
  | bool _ | int _ | float _ => rfl
  | _ => cases hnumber

theorem kept_extrinsics {e : Extrinsics} (h : coerceExtrinsics (.dict entries) = .ok e)
    (hlossless : LosslessExtrinsics (some (.dict entries)))
    (hat : Yaml.At (.dict entries) place v) :
    ∃ w, Yaml.At (.dict e.entries) place w ∧ KeptAs v w := by
  obtain ⟨honly, hexact⟩ := hlossless
  refine kept_mapping honly hat fun key hkey raw hraw rest _ hat => ?_
  obtain ⟨x, hnumber, hfloat⟩ := hexact key hkey raw hraw
  obtain ⟨default, f, hf, hafter⟩ := extrinsics_rewritten h key hkey
  rw [coerceOffset_of_number hraw hnumber, hfloat] at hf
  obtain rfl := Except.ok.inj hf
  have hleaf : Yaml.IsLeaf raw := by
    cases raw with
    | dict _ => cases hnumber
    | _ => trivial
  exact kept_leaf hleaf hafter (.inr ⟨x, hnumber, rfl⟩) hat

theorem kept_bridge {b : BridgeConfig} (h : b.Reads (.dict entries))
    (honly : OnlyKeys bridgeKeys entries) (hat : Yaml.At (.dict entries) place v) :
    ∃ w, Yaml.At (.dict b.entries) place w ∧ KeptAs v w := by
  obtain ⟨⟩ | ⟨hdevice, hsystem, hcomponent⟩ := h
  refine kept_mapping honly hat fun key hkey raw hraw rest _ hat => ?_
  simp only [bridgeKeys, List.mem_cons, List.not_mem_nil, or_false] at hkey
  rcases hkey with rfl | rfl | rfl
  · rw [Yaml.getD_of_lookup hraw] at hdevice
    subst hdevice
    exact kept_leaf (Yaml.isLeaf_str _) (by simp [BridgeConfig.entries, Yaml.lookup_cons])
      (.inl rfl) hat
  · rw [Yaml.getD_of_lookup hraw] at hsystem
    subst hsystem
    exact kept_leaf (isLeaf_toYaml _) (by simp [BridgeConfig.entries, Yaml.lookup_cons])
      (.inl rfl) hat
  · rw [Yaml.getD_of_lookup hraw] at hcomponent
    subst hcomponent
    exact kept_leaf (isLeaf_toYaml _) (by simp [BridgeConfig.entries, Yaml.lookup_cons])
      (.inl rfl) hat

theorem kept_vslam (hread : c.Reads entries) {path mode : String}
    (honly : OnlyKeys vslamKeys entries)
    (hlossless : LosslessExtrinsics (Yaml.lookup "extrinsics" entries))
    (hchanged : .str "vslam" :: place ∉ changedPaths) (hat : Yaml.At (.dict entries) place v) :
    ∃ w, Yaml.At (.dict (pointAt path mode c).entries) place w ∧ KeptAs v w := by
  refine kept_mapping honly hat fun key hkey raw hraw rest hplace hrest => ?_
  subst hplace
  simp only [vslamKeys, List.mem_append, List.mem_cons, List.not_mem_nil, or_false] at hkey
  rcases hkey with hkey | rfl | rfl | rfl
  · obtain ⟨s, hs, rfl⟩ := List.mem_map.mp hkey
    obtain ⟨hafter, hleaf⟩ := lookup_rewritten hread path mode s hs
    rw [Yaml.getD_of_lookup hraw] at hafter hleaf
    exact kept_leaf hleaf hafter (.inl rfl) hrest
  · have hdatabase := hread.databasePath
    rw [Yaml.getD_of_lookup hraw] at hdatabase
    subst hdatabase
    obtain ⟨rfl, -⟩ := hrest.of_leaf (Yaml.isLeaf_str _)
    exact absurd (by simp [changedPaths]) hchanged
  · have hmode := hread.slamMode
    rw [Yaml.getD_of_lookup hraw] at hmode
    subst hmode
    obtain ⟨rfl, -⟩ := hrest.of_leaf (Yaml.isLeaf_str _)
    exact absurd (by simp [changedPaths]) hchanged
  · rw [hraw] at hlossless
    have hextrinsics := hread.extrinsics
    rw [Yaml.getD_of_lookup hraw] at hextrinsics
    cases raw with
    | dict offsets =>
      obtain ⟨w, hw, hkeeps⟩ := kept_extrinsics hextrinsics hlossless hrest
      exact ⟨w, at_entries_extrinsics.mpr hw, hkeeps⟩
    | _ => exact hlossless.elim

end Kept

theorem checkVslamParams_saved : checkVslamParams py vslamConfigPath (saveVslamConfig c) =
    .ok (true, "VSLAM config present (ardupilot_params section not yet added)") := by
  have hparams : Yaml.lookup "ardupilot_params" c.toDict.entries = none :=
    onlyKeys_toDict.lookup (by decide)
  have hvslam : Yaml.lookup "vslam" c.toDict.entries = some (.dict c.entries) := by
    simp [Config.VslamConfig.toDict, Yaml.entries, Yaml.lookup_cons]
  exact checkVslamParams_of_section hparams hvslam (by simp [Config.VslamConfig.entries])

theorem frame_of_lossless {raw : Yaml} {path mode : String}
    (hc : loadVslamConfig py vslamConfigPath (.document raw) = .ok c) (h : Lossless raw) :
    Frame py raw (saveVslamConfig (pointAt path mode c)) := by
  cases raw with
  | dict root =>
    obtain ⟨honly, hbridge, vslam, hvslam, honlyVslam, hresolution, hextrinsics⟩ := h
    obtain ⟨vslam', hsection, hread, hreadBridge, -⟩ := loadVslamConfig_document hc
    rw [Yaml.entries] at hsection hreadBridge
    have hsame : vslam = vslam' := by
      rw [Yaml.getD_of_lookup hvslam] at hsection
      exact Yaml.dict.inj hsection
    subst hsame
    refine ⟨fun place v hat hne hchanged => ?_, ?_, ?_⟩
    · cases place with
      | nil => exact absurd rfl hne
      | cons key rest =>
        obtain ⟨k, hk, rfl⟩ := key_of_at honly hat
        obtain ⟨found, hpresent, hat⟩ := Yaml.at_dict_cons_iff.mp hat
        rw [Yaml.present_str_iff] at hpresent
        simp only [List.mem_cons, List.not_mem_nil, or_false] at hk
        rcases hk with rfl | rfl
        · obtain rfl := Option.some.inj (hvslam.symm.trans hpresent)
          obtain ⟨w, hw, hkeeps⟩ := kept_vslam hread honlyVslam hextrinsics hchanged hat
          exact ⟨w, at_toDict_vslam.mpr hw, hkeeps⟩
        · rw [hpresent] at hbridge
          rw [Yaml.getD_of_lookup hpresent] at hreadBridge
          cases found with
          | dict entries =>
            obtain ⟨w, hw, hkeeps⟩ := kept_bridge hreadBridge hbridge hat
            exact ⟨w, at_toDict_bridge.mpr hw, hkeeps⟩
          | _ => exact hbridge.elim
    · have hbefore : loadConfig (.document (.dict root)) = (readSettings vslam).cfg :=
        Vslam.loadConfig_of_section hsection
      rw [hbefore]
      exact readSettings_rewritten hread hresolution path mode
    · have hne : vslam ≠ [] := by
        rintro rfl
        cases hresolution
      rw [checkVslamParams_of_section (honly.lookup (by decide)) hvslam hne]
      exact checkVslamParams_saved
  | _ => exact h.elim

section Lost

variable {raw : Yaml} {root : List (Yaml × Yaml)} {path mode : String}

theorem Frame.at_toDict (h : Frame py raw (saveVslamConfig (pointAt path mode c)))
    {place : List Yaml} {v : Yaml} (hat : Yaml.At raw place v) (hne : place ≠ [])
    (hchanged : place ∉ changedPaths) :
    ∃ w, Yaml.At (pointAt path mode c).toDict place w ∧ KeptAs v w :=
      h.kept place v hat hne hchanged

theorem not_keptAs_null {entries : List (Yaml × Yaml)} : ¬ KeptAs .null (.dict entries) := by
  rintro (h | ⟨x, h, -⟩) <;> cases h

theorem At.here_eq {doc w : Yaml} (h : Yaml.At doc [] w) : w = doc := by
  cases h
  rfl

theorem onlyKeys_root (h : Frame py (.dict root) (saveVslamConfig (pointAt path mode c))) :
    OnlyKeys ["vslam", "bridge"] root := by
  intro e he
  obtain ⟨v, hpresent⟩ := Yaml.exists_present he
  obtain ⟨w, hw, -⟩ := h.at_toDict (.there hpresent (.here v)) (by simp) (by simp [changedPaths])
  exact key_of_at onlyKeys_toDict hw

variable {entries : List (Yaml × Yaml)}

theorem onlyKeys_vslam (h : Frame py (.dict root) (saveVslamConfig (pointAt path mode c)))
    (hvslam : Yaml.lookup "vslam" root = some (.dict entries)) : OnlyKeys vslamKeys entries := by
  intro e he
  obtain ⟨v, hpresent⟩ := Yaml.exists_present he
  by_cases hchanged : [.str "vslam", e.1] ∈ changedPaths
  · simp only [changedPaths, List.mem_cons, List.cons.injEq, true_and, and_true, List.not_mem_nil,
      or_false] at hchanged
    rcases hchanged with he | he
    · exact ⟨"database_path", by decide, he⟩
    · exact ⟨"slam_mode", by decide, he⟩
  · obtain ⟨w, hw, -⟩ := h.at_toDict (Yaml.at_str hvslam (.there hpresent (.here v))) (by simp)
      hchanged
    exact key_of_at onlyKeys_entries (at_toDict_vslam.mp hw)

theorem losslessBridge_of_frame (h : Frame py (.dict root) (saveVslamConfig (pointAt path mode c)))
    (hread : c.bridge.Reads (Yaml.getD root "bridge" .null)) :
    LosslessBridge (Yaml.lookup "bridge" root) := by
  cases hbridge : Yaml.lookup "bridge" root with
  | none => trivial
  | some found =>
    rw [Yaml.getD_of_lookup hbridge] at hread
    cases found with
    | null =>
      obtain ⟨w, hw, hkeeps⟩ := h.at_toDict (Yaml.at_str hbridge (.here _)) (by simp)
        (by simp [changedPaths])
      rw [At.here_eq (at_toDict_bridge.mp hw)] at hkeeps
      exact absurd hkeeps not_keptAs_null
    | dict entries =>
      intro e he
      obtain ⟨v, hpresent⟩ := Yaml.exists_present he
      obtain ⟨w, hw, -⟩ := h.at_toDict (Yaml.at_str hbridge (.there hpresent (.here v))) (by simp)
        (by simp [changedPaths])
      exact key_of_at onlyKeys_bridge (at_toDict_bridge.mp hw)
    | _ => cases hread

/-- An offset that is kept is a number that a double holds. -/
theorem exactDouble_of_kept {key : String} {v : Yaml} {default f : PyFloat}
    (hraw : Yaml.lookup key entries = some v) (hf : coerceOffset entries key default = .ok f)
    (hkeeps : KeptAs v (.float f)) : ExactDouble v := by
  rw [coerceOffset, Yaml.getD_of_lookup hraw] at hf
  cases v with
  | null => rcases hkeeps with h | ⟨x, h, -⟩ <;> cases h
  | float g => exact ⟨g, rfl, rfl⟩
  | bool b =>
    rcases hkeeps with h | ⟨x, hx, hfx⟩
    · cases h
    · obtain rfl := Option.some.inj hfx
      exact ⟨f, hx, hf⟩
  | int i =>
    rcases hkeeps with h | ⟨x, hx, hfx⟩
    · cases h
    · obtain rfl := Option.some.inj hfx
      exact ⟨f, hx, hf⟩
  | _ => simp [refuse] at hf

theorem losslessExtrinsics_of_frame
    (h : Frame py (.dict root) (saveVslamConfig (pointAt path mode c)))
    (hvslam : Yaml.lookup "vslam" root = some (.dict entries)) (hread : c.Reads entries) :
    LosslessExtrinsics (Yaml.lookup "extrinsics" entries) := by
  have hcoerced := hread.extrinsics
  cases hextrinsics : Yaml.lookup "extrinsics" entries with
  | none => trivial
  | some found =>
    rw [Yaml.getD_of_lookup hextrinsics] at hcoerced
    -- what is kept below `extrinsics` is among the offsets that are written
    have hat : ∀ {place : List Yaml} {v : Yaml}, Yaml.At found place v →
        ∃ w, Yaml.At (.dict c.extrinsics.entries) place w ∧ KeptAs v w := by
      intro place v hat
      obtain ⟨w, hw, hkeeps⟩ := h.at_toDict (Yaml.at_str hvslam (Yaml.at_str hextrinsics hat))
        (by simp) (by simp [changedPaths])
      have hoffset := at_entries_extrinsics.mp (at_toDict_vslam.mp hw)
      exact ⟨w, hoffset, hkeeps⟩
    cases found with
    | null =>
      obtain ⟨w, hw, hkeeps⟩ := hat (.here _)
      rw [At.here_eq hw] at hkeeps
      exact absurd hkeeps not_keptAs_null
    | dict offsets =>
      constructor
      · intro e he
        obtain ⟨v, hpresent⟩ := Yaml.exists_present he
        obtain ⟨w, hw, -⟩ := hat (.there hpresent (.here v))
        exact key_of_at onlyKeys_extrinsics hw
      · intro key hkey v hv
        obtain ⟨w, hw, hkeeps⟩ := hat (Yaml.at_str hv (.here v))
        obtain ⟨default, f, hf, hafter⟩ := extrinsics_rewritten hcoerced key hkey
        obtain ⟨w', hw', hw⟩ := Yaml.at_dict_cons_iff.mp hw
        rw [Yaml.present_str_iff, hafter] at hw'
        obtain rfl := Option.some.inj hw'
        rw [At.here_eq hw] at hkeeps
        exact exactDouble_of_kept hv hf hkeeps
    | _ => simp [coerceExtrinsics, refuse] at hcoerced

theorem lossless_of_frame (hc : loadVslamConfig py vslamConfigPath (.document raw) = .ok c)
    (h : Frame py raw (saveVslamConfig (pointAt path mode c))) : Lossless raw := by
  obtain ⟨vslam, hsection, hread, hreadBridge, -⟩ := loadVslamConfig_document hc
  have hnode := congrArg SlamConfig.stereoResolution h.node
  rw [Vslam.loadConfig_of_section hsection] at hnode
  have hresolution := resolution_given hread hnode
  cases raw with
  | dict root =>
    rw [Yaml.entries] at hsection hreadBridge
    cases hvslam : Yaml.lookup "vslam" root with
    | none =>
      rw [Yaml.getD_of_absent hvslam] at hsection
      rw [← Yaml.dict.inj hsection] at hresolution
      cases hresolution
    | some found =>
      rw [Yaml.getD_of_lookup hvslam] at hsection
      subst hsection
      exact ⟨onlyKeys_root h, losslessBridge_of_frame h hreadBridge, vslam, hvslam,
        onlyKeys_vslam h hvslam, hresolution, losslessExtrinsics_of_frame h hvslam hread⟩
  | _ =>
    rw [← Yaml.dict.inj hsection] at hresolution
    cases hresolution

end Lost

end Document

section Run

variable {py : PyText} {torn : YamlFile} {answers : Oracle jetsonSignature} {start : Disk}
  {zoneId slamMode : String} {before : Yaml}

/-- An activation that has written the file leaves the rest of it alone exactly
when all of it is known to the loader. -/
theorem zoneActivate_frame_iff (hstart : Untouched (.document before) start)
    (hsaved : Saved ((zoneActivate zoneId slamMode).run (disk py torn answers) start).state.past) :
    Frame py before ((zoneActivate zoneId slamMode).run (disk py torn answers) start).state.file ↔
      Lossless before := by
  obtain ⟨-, c, hc, mode, -, hfile⟩ := activated_of_saved hstart hsaved
  rw [hfile]
  exact ⟨lossless_of_frame hc, frame_of_lossless hc⟩

/-- A file with some of the settings and one of the offsets. -/
def someSettings : Yaml :=
  .dict [(.str "vslam", .dict [(.str "stereo_resolution", .str "480p"),
    (.str "stereo_fps", .int 15),
    (.str "extrinsics", .dict [(.str "pitch", .float (.fin (-20)))])])]

theorem lossless_someSettings : Lossless someSettings := by
  have hexact : ExactDouble (.float (.fin (-20))) := ⟨_, rfl, rfl⟩
  refine ⟨by simp [OnlyKeys], trivial, _, rfl, ?_, rfl, ?_, ?_⟩
  · simp [OnlyKeys, vslamKeys, otherSettings]
  · simp [OnlyKeys, extrinsicsKeys]
  · simp [extrinsicsKeys, Yaml.lookup, hexact]

theorem zoneActivate_frame_someSettings :
    Frame .plain someSettings ((zoneActivate "north" "mapping").run
      (disk .plain .missing willing) (.holding (.document someSettings))).state.file :=
  (zoneActivate_frame_iff (untouched_holding _) (saved_of_ok (untouched_holding _) rfl)).mpr
    lossless_someSettings

/-- A file with the parameters that the probe looks for. -/
def withParams : Yaml :=
  .dict [(.str "vslam", .dict [(.str "stereo_resolution", .str "800p")]),
    (.str "ardupilot_params", .dict [(.str "VISO_TYPE", .int 1)])]

theorem zoneActivate_drops_params :
    ((zoneActivate "north" "mapping").run (disk .plain .missing willing)
        (.holding (.document withParams))).result = .ok () ∧
      ¬ Frame .plain withParams ((zoneActivate "north" "mapping").run (disk .plain .missing willing)
        (.holding (.document withParams))).state.file := by
  refine ⟨rfl, fun h => ?_⟩
  obtain ⟨honly, -⟩ : Lossless withParams := lossless_of_frame rfl h
  simp [OnlyKeys] at honly

end Run

end MowerRover.Cli
