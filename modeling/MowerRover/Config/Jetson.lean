import MowerRover.Config.Vslam
import MowerRover.Numeric.Limits
import MowerRover.PosixPath
import MowerRover.YamlOrder

/-!
# `jetson.yaml`, as Python reads and writes it

The configuration of the Jetson. What the loader does not know is kept under
`extra` and written back beside the known settings, with all keys sorted.
-/

namespace MowerRover.Config

open Numeric
open Zone (YamlFile)

def defaultKioskServiceUnits : List String :=
  ["mower-health.service", "mower-vslam.service", "mower-vslam-bridge.service",
    "mower-weston.service", "mower-mavproxy.service"]

def defaultMavproxyOutputs : List String :=
  ["udp:127.0.0.1:14550", "udp:127.0.0.1:14551", "udp:127.0.0.1:14552"]

structure KioskConfig where
  mavproxyEndpoint : String := "udp:127.0.0.1:14551"
  mavproxyMaster : String := "/dev/ttyACM0"
  mavproxyOutputs : List String := defaultMavproxyOutputs
  vslamSocket : String := "/run/mower/vslam-pose.sock"
  refreshHz : PyInt := .int 1
  heartbeatStalenessS : PyFloat := .fin 60
  serviceCheckUnits : List String := defaultKioskServiceUnits
  deriving DecidableEq, Repr

structure JetsonConfig where
  logDir : Option PosixPath := none
  oakdRequired : Bool := false
  healthIntervalS : PyInt := .int 60
  serviceUserLevel : Bool := false
  kiosk : KioskConfig := {}
  extra : Yaml.Mapping := .empty

/-- `asdict(kiosk)`. -/
def KioskConfig.entries (k : KioskConfig) : List (Yaml × Yaml) :=
  [(.str "mavproxy_endpoint", .str k.mavproxyEndpoint),
    (.str "mavproxy_master", .str k.mavproxyMaster),
    (.str "mavproxy_outputs", .list (k.mavproxyOutputs.map .str)),
    (.str "vslam_socket", .str k.vslamSocket),
    (.str "refresh_hz", k.refreshHz.toYaml),
    (.str "heartbeat_staleness_s", .float k.heartbeatStalenessS),
    (.str "service_check_units", .list (k.serviceCheckUnits.map .str))]

def logDirToYaml : Option PosixPath → Yaml
  | some path => .str (String.ofList path.text)
  | none => .null

/-- The settings that the loader knows. -/
def JetsonConfig.settings (c : JetsonConfig) : List (Yaml × Yaml) :=
  [(.str "log_dir", logDirToYaml c.logDir),
    (.str "oakd_required", .bool c.oakdRequired),
    (.str "health_interval_s", c.healthIntervalS.toYaml),
    (.str "service_user_level", .bool c.serviceUserLevel),
    (.str "kiosk", .dict c.kiosk.entries)]

def JetsonConfig.toDict (c : JetsonConfig) : List (Yaml × Yaml) :=
  c.settings ++ [(.str "extra", .dict c.extra.entries)]

variable (py : PyText)

/-- A setting is checked when it is in the mapping. -/
def ifGiven {α : Type} (raw : List (Yaml × Yaml)) (key : String)
    (check : Yaml → Except PyError α) (default : α) : Except PyError α :=
  match Yaml.lookup key raw with
  | some v => check v
  | none => pure default

def checkStr (field : String) : Yaml → Except PyError String
  | .str s => pure s
  | raw => refuse s!"{field} must be str, got {raw.typeName}"

def textOf : Yaml → Option String
  | .str s => some s
  | _ => none

def checkStrings (field : String) (raw : Yaml) : Except PyError (List String) :=
  match raw with
  | .list xs =>
    match xs.mapM textOf with
    | some texts => pure texts
    | none => wrong
  | _ => wrong
where
  wrong : Except PyError (List String) := refuse s!"{field} must be a list of strings"

/-- A number above zero that is no boolean, as a float. -/
def checkPositiveNumber (field : String) (raw : Yaml) : Except PyError PyFloat :=
  match raw with
  | .int i => if i ≤ 0 then wrong else pyFloat (.int i)
  | .float f => if f.le (.fin 0) then wrong else pyFloat (.float f)
  | _ => wrong
where
  wrong : Except PyError PyFloat :=
    refuse s!"{field} must be a positive number, got {py.repr raw}"

def coerceKiosk : Yaml → Except PyError KioskConfig
  | .null => pure {}
  | .dict raw => do
    let d : KioskConfig := {}
    pure { mavproxyEndpoint := ← ifGiven raw "mavproxy_endpoint"
             (checkStr "kiosk.mavproxy_endpoint") d.mavproxyEndpoint
           mavproxyMaster := ← ifGiven raw "mavproxy_master"
             (checkStr "kiosk.mavproxy_master") d.mavproxyMaster
           mavproxyOutputs := ← ifGiven raw "mavproxy_outputs"
             (checkStrings "kiosk.mavproxy_outputs") d.mavproxyOutputs
           vslamSocket := ← ifGiven raw "vslam_socket"
             (checkStr "kiosk.vslam_socket") d.vslamSocket
           refreshHz := ← ifGiven raw "refresh_hz"
             (checkPositive py "kiosk.refresh_hz") d.refreshHz
           heartbeatStalenessS := ← ifGiven raw "heartbeat_staleness_s"
             (checkPositiveNumber py "kiosk.heartbeat_staleness_s") d.heartbeatStalenessS
           serviceCheckUnits := ← ifGiven raw "service_check_units"
             (checkStrings "kiosk.service_check_units") d.serviceCheckUnits }
  | raw => refuse s!"kiosk section must be a mapping, got {raw.typeName}"

def coerceLogDir : Yaml → Except PyError (Option PosixPath)
  | .null => pure none
  | .str s => pure (some (.parse s.toList))
  | raw => refuse s!"log_dir must be a string path, got {raw.typeName}"

def known : List String :=
  ["log_dir", "oakd_required", "health_interval_s", "service_user_level", "kiosk"]

/-- `k not in known`. -/
def isUnknown (key : Yaml) : Bool := !known.any fun name => Yaml.sameKey key (.str name)

def coerceJetson : Yaml → Except PyError JetsonConfig
  | .dict raw => do
    let extra := Yaml.Mapping.ofEntries (raw.filter fun e => isUnknown e.1)
    let get := Yaml.getD raw
    pure { logDir := ← coerceLogDir (get "log_dir" .null)
           oakdRequired := ← checkBool "oakd_required" (get "oakd_required" (.bool false))
           healthIntervalS := ← checkPositive py "health_interval_s"
             (get "health_interval_s" (.int 60))
           serviceUserLevel := ← checkBool "service_user_level"
             (get "service_user_level" (.bool false))
           kiosk := ← coerceKiosk py (get "kiosk" .null)
           extra := extra }
  | raw => refuse s!"top-level YAML must be a mapping, got {raw.typeName}"

def loadJetsonConfig (path : String) : YamlFile → Except PyError JetsonConfig
  | .missing => pure {}
  | .malformed message => refuse s!"failed to parse {path}: {message}"
  | .raised error => throw error.toPyError
  | .document raw => coerceJetson py (if pyBool raw then raw else .dict [])

/-- What is written, before its keys are sorted. -/
def JetsonConfig.payload (c : JetsonConfig) : List (Yaml × Yaml) :=
  Yaml.pop "extra" (Yaml.update c.toDict c.extra.entries)

/-- What the file may hold once it has been written, whatever the order of the keys. -/
def saveJetsonConfig (c : JetsonConfig) (saved : Yaml) : Prop := Yaml.Same (.dict c.payload) saved

/-- `c == c'`; two mappings are equal in any order. -/
structure JetsonConfig.Equal (c c' : JetsonConfig) : Prop where
  logDir : c.logDir = c'.logDir
  oakdRequired : c.oakdRequired = c'.oakdRequired
  healthIntervalS : c.healthIntervalS = c'.healthIntervalS
  serviceUserLevel : c.serviceUserLevel = c'.serviceUserLevel
  kiosk : c.kiosk = c'.kiosk
  extra : Yaml.Same (.dict c.extra.entries) (.dict c'.extra.entries)

structure KioskConfig.Valid (k : KioskConfig) : Prop where
  refreshHz : 0 < k.refreshHz.toInt
  heartbeatStalenessS : k.heartbeatStalenessS.le (.fin 0) = false

/-- What holds of the settings that the loader accepts. -/
structure JetsonConfig.Valid (c : JetsonConfig) : Prop where
  healthIntervalS : 0 < c.healthIntervalS.toInt
  kiosk : c.kiosk.Valid
  extra : ∀ key ∈ Yaml.keys c.extra.entries, isUnknown key = true

variable {py}

section Accepted

variable {raw : List (Yaml × Yaml)} {doc : Yaml} {k : KioskConfig} {c : JetsonConfig}

theorem ifGiven_cases {α : Type} {key : String} {check : Yaml → Except PyError α} {default a : α}
    (h : ifGiven raw key check default = .ok a) : a = default ∨ ∃ v, check v = .ok a := by
  unfold ifGiven at h
  cases hlookup : Yaml.lookup key raw with
  | none =>
    rw [hlookup] at h
    exact .inl (Except.ok.inj h).symm
  | some v =>
    rw [hlookup] at h
    exact .inr ⟨v, h⟩

theorem checkPositive_eq_ok_iff {field : String} {v : Yaml} {i : PyInt} :
    checkPositive py field v = .ok i ↔ v = i.toYaml ∧ 0 < i.toInt := by
  rw [checkPositive, checkInt_eq_ok_iff, Bool.not_eq_true', decide_eq_false_iff_not, not_le]

theorem checkPositiveNumber_positive {field : String} {v : Yaml} {f : PyFloat}
    (h : checkPositiveNumber py field v = .ok f) : f.le (.fin 0) = false := by
  unfold checkPositiveNumber at h
  split at h
  case h_1 i =>
    split_ifs at h with hi
    · cases h
    · exact floatOfInt_pos (not_le.mp hi) h
  case h_2 g =>
    split_ifs at h with hg
    · cases h
    · obtain rfl := Except.ok.inj h
      simpa using hg
  case h_3 => cases h

theorem coerceKiosk_valid (h : coerceKiosk py doc = .ok k) : k.Valid := by
  cases doc with
  | null =>
    obtain rfl := Except.ok.inj h
    constructor <;> decide
  | dict raw =>
    simp only [coerceKiosk, bind_eq_ok] at h
    obtain ⟨_, -, _, -, _, -, _, -, refresh, hrefresh, staleness, hstaleness, _, -, h⟩ := h
    obtain rfl := Except.ok.inj h
    constructor
    · rcases ifGiven_cases hrefresh with rfl | ⟨v, hv⟩
      · simp [PyInt.toInt]
      · exact (checkPositive_eq_ok_iff.mp hv).2
    · rcases ifGiven_cases hstaleness with rfl | ⟨v, hv⟩
      · simp [PyFloat.le]
      · exact checkPositiveNumber_positive hv
  | _ => cases h

theorem isUnknown_iff {key : Yaml} :
    isUnknown key = true ↔ ∀ name ∈ known, Yaml.sameKey key (.str name) = false := by
  rw [isUnknown, Bool.not_eq_true', List.any_eq_false]
  simp only [Bool.not_eq_true]

theorem isUnknown_of_mem {key : Yaml}
    (h : key ∈ Yaml.keys (Yaml.Mapping.ofEntries (raw.filter fun e => isUnknown e.1)).entries) :
    isUnknown key = true := by
  obtain h | h := Yaml.mem_keys_update h
  · cases h
  · obtain ⟨e, he, rfl⟩ := List.mem_map.mp h
    exact (List.mem_filter.mp he).2

/-- What is read of an accepted document. -/
theorem loadJetsonConfig_document {path : String}
    (h : loadJetsonConfig py path (.document doc) = .ok c) :
    c.Valid ∧ c.extra = .ofEntries (doc.entries.filter fun e => isUnknown e.1) := by
  have hroot : coerceJetson py (if pyBool doc then doc else .dict []) = .ok c := h
  cases hdoc : (if pyBool doc then doc else .dict []) with
  | dict root =>
    obtain rfl := entries_of_orEmpty hdoc
    rw [hdoc] at hroot
    simp only [coerceJetson, bind_eq_ok] at hroot
    obtain ⟨_, -, _, -, health, hhealth, _, -, kiosk, hkiosk, hroot⟩ := hroot
    obtain rfl := Except.ok.inj hroot
    refine ⟨⟨(checkPositive_eq_ok_iff.mp hhealth).2, coerceKiosk_valid hkiosk, ?_⟩, rfl⟩
    intro key hkey
    exact isUnknown_of_mem hkey
  | _ =>
    rw [hdoc] at hroot
    cases hroot

/-- A key `extra` of the document is one of the keys that are kept. -/
theorem extra_mem_keys_iff {path : String}
    (h : loadJetsonConfig py path (.document doc) = .ok c) :
    .str "extra" ∉ Yaml.keys c.extra.entries ↔ Yaml.lookup "extra" doc.entries = none := by
  rw [(loadJetsonConfig_document h).2, Yaml.lookup_eq_none_iff, Yaml.Mapping.ofEntries,
    Yaml.str_mem_keys_update]
  simp [Yaml.keys, isUnknown, known, Yaml.sameKey, Yaml.hash]

end Accepted

section Saved

variable {k : KioskConfig} {c : JetsonConfig} {fs : List (Yaml × Yaml)} {saved : Yaml}

theorem fixed_toYaml (i : PyInt) : Yaml.Fixed i.toYaml := by
  cases i with
  | int i => exact Yaml.fixed_int i
  | bool b => exact Yaml.fixed_bool b

theorem fixed_texts (texts : List String) : Yaml.Fixed (.list (texts.map .str)) := by
  apply Yaml.fixed_list
  intro x hx
  obtain ⟨s, -, rfl⟩ := List.mem_map.mp hx
  exact Yaml.fixed_str s

theorem checkStrings_texts (field : String) (texts : List String) :
    checkStrings field (.list (texts.map .str)) = .ok texts := by
  have hmap : (texts.map Yaml.str).mapM textOf = some texts := by
    induction texts with
    | nil => rfl
    | cons s texts ih => simp [textOf, ih]
  simp [checkStrings, hmap]

theorem checkPositiveNumber_float {field : String} {f : PyFloat} (h : f.le (.fin 0) = false) :
    checkPositiveNumber py field (.float f) = .ok f := by
  simp [checkPositiveNumber, h, pyFloat]

theorem KioskConfig.distinct_entries (k : KioskConfig) : Yaml.Distinct k.entries := by
  simp [Yaml.Distinct, entries, Yaml.sameKey, Yaml.hash]

theorem ifGiven_of_lookup {α : Type} {key : String} {v : Yaml} {check : Yaml → Except PyError α}
    {default : α} (h : Yaml.lookup key fs = some v) : ifGiven fs key check default = check v := by
  rw [ifGiven, h]

theorem coerceKiosk_entries (hk : k.Valid) (h : Yaml.Reordered k.entries fs) :
    coerceKiosk py (.dict fs) = .ok k := by
  have given : ∀ {α : Type} {key : String} {v : Yaml} (check : Yaml → Except PyError α)
      (default : α), Yaml.Fixed v → Yaml.lookup key k.entries = some v →
      ifGiven fs key check default = check v := fun _ _ hv hfound =>
    ifGiven_of_lookup (h.lookup_fixed k.distinct_entries hv hfound)
  rw [coerceKiosk, given _ _ (Yaml.fixed_str k.mavproxyEndpoint) rfl,
    given _ _ (Yaml.fixed_str k.mavproxyMaster) rfl, given _ _ (fixed_texts k.mavproxyOutputs) rfl,
    given _ _ (Yaml.fixed_str k.vslamSocket) rfl, given _ _ (fixed_toYaml k.refreshHz) rfl,
    given _ _ (Yaml.fixed_float k.heartbeatStalenessS) rfl,
    given _ _ (fixed_texts k.serviceCheckUnits) rfl, checkStrings_texts, checkStrings_texts,
    checkPositive_eq_ok_iff.mpr ⟨rfl, hk.refreshHz⟩,
    checkPositiveNumber_float hk.heartbeatStalenessS]
  rfl

theorem coerceLogDir_logDirToYaml (path : Option PosixPath) :
    coerceLogDir (logDirToYaml path) = .ok path := by
  cases path with
  | none => rfl
  | some path => simp [logDirToYaml, coerceLogDir, PosixPath.parse_text]

theorem fixed_logDirToYaml (path : Option PosixPath) : Yaml.Fixed (logDirToYaml path) := by
  cases path with
  | none => exact Yaml.fixed_null
  | some path => exact Yaml.fixed_str _

theorem keys_settings (c : JetsonConfig) : Yaml.keys c.settings = known.map .str := rfl

theorem distinct_settings (c : JetsonConfig) : Yaml.Distinct c.settings := by
  simp [Yaml.Distinct, keys_settings, known, Yaml.sameKey, Yaml.hash]

theorem sameKey_settings {key key' : Yaml} (h : key ∈ Yaml.keys c.settings)
    (h' : isUnknown key' = true) : Yaml.sameKey key key' = false := by
  rw [keys_settings] at h
  obtain ⟨name, hname, rfl⟩ := List.mem_map.mp h
  rw [Yaml.sameKey_comm]
  exact isUnknown_iff.mp h' name hname

section Unknown

variable (hunknown : ∀ key ∈ Yaml.keys c.extra.entries, isUnknown key = true)

include hunknown

/-- Without a key `extra` the known settings and the others are written. -/
theorem payload_eq (hextra : .str "extra" ∉ Yaml.keys c.extra.entries) :
    c.payload = c.settings ++ c.extra.entries := by
  have hnew : ∀ key ∈ Yaml.keys c.toDict, ∀ key' ∈ Yaml.keys c.extra.entries,
      Yaml.sameKey key key' = false := by
    intro key hkey key' hkey'
    rw [JetsonConfig.toDict, Yaml.keys_append, List.mem_append] at hkey
    rcases hkey with hkey | hkey
    · exact sameKey_settings hkey (hunknown key' hkey')
    · obtain rfl : key = .str "extra" := by simpa using hkey
      rw [Yaml.sameKey_comm, Yaml.sameKey_str_eq_false_iff]
      rintro rfl
      exact hextra hkey'
  have hsettings : .str "extra" ∉ Yaml.keys c.settings := by
    rw [keys_settings]
    simp [known]
  rw [JetsonConfig.payload, Yaml.update_new c.extra.distinct hnew, JetsonConfig.toDict,
    Yaml.pop_append, Yaml.pop_append, Yaml.pop_eq_self hsettings, Yaml.pop_eq_self hextra]
  simp [Yaml.pop, Yaml.sameKey, Yaml.hash]

theorem distinct_settings_append : Yaml.Distinct (c.settings ++ c.extra.entries) := by
  rw [Yaml.Distinct, Yaml.keys_append, List.pairwise_append]
  refine ⟨distinct_settings c, c.extra.distinct, fun key hkey key' hkey' => ?_⟩
  exact sameKey_settings hkey (hunknown key' hkey')

theorem filter_settings_append :
    (c.settings ++ c.extra.entries).filter (fun e => isUnknown e.1) = c.extra.entries := by
  have hsettings : c.settings.filter (fun e => isUnknown e.1) = [] := by
    simp [JetsonConfig.settings, isUnknown, known, Yaml.sameKey, Yaml.hash]
  rw [List.filter_append, hsettings, List.nil_append, List.filter_eq_self]
  intro e he
  exact hunknown e.1 (List.mem_map_of_mem he)

end Unknown

/-- A configuration without a key `extra` among the others is loaded as it was saved. -/
theorem loadJetsonConfig_save {path : String} (hc : c.Valid)
    (hextra : .str "extra" ∉ Yaml.keys c.extra.entries) (hsaved : saveJetsonConfig c saved) :
    ∃ c', loadJetsonConfig py path (.document saved) = .ok c' ∧ c.Equal c' := by
  rw [saveJetsonConfig, payload_eq hc.extra hextra] at hsaved
  obtain ⟨fs, rfl, hfs⟩ := hsaved.of_dict
  have hdistinct := distinct_settings_append hc.extra
  have found : ∀ {key : String} {v : Yaml} (default : Yaml), Yaml.Fixed v →
      Yaml.lookup key (c.settings ++ c.extra.entries) = some v →
      Yaml.getD fs key default = v := fun default hv hfound =>
    Yaml.getD_of_lookup (hfs.lookup_fixed hdistinct hv hfound) default
  obtain ⟨kiosk, hkiosk, hsame⟩ := hfs.lookup hdistinct
    (show Yaml.lookup "kiosk" _ = some (.dict c.kiosk.entries) from rfl)
  obtain ⟨ks, rfl, hks⟩ := hsame.of_dict
  have hothers := hfs.filter isUnknown
  rw [filter_settings_append hc.extra] at hothers
  have hload : loadJetsonConfig py path (.document (.dict fs)) =
      .ok { c with extra := .ofEntries (fs.filter fun e => isUnknown e.1) } := by
    rw [loadJetsonConfig, orEmpty_dict, coerceJetson, found _ (fixed_logDirToYaml c.logDir) rfl,
      found _ (Yaml.fixed_bool c.oakdRequired) rfl, found _ (fixed_toYaml c.healthIntervalS) rfl,
      found _ (Yaml.fixed_bool c.serviceUserLevel) rfl, Yaml.getD_of_lookup hkiosk,
      coerceLogDir_logDirToYaml, checkPositive_eq_ok_iff.mpr ⟨rfl, hc.healthIntervalS⟩,
      coerceKiosk_entries hc.kiosk hks]
    rfl
  refine ⟨_, hload, rfl, rfl, rfl, rfl, rfl, ?_⟩
  dsimp only
  rw [Yaml.Mapping.ofEntries_of_distinct (hothers.distinct c.extra.distinct)]
  obtain ⟨mid, hperm, hentries⟩ := hothers
  exact .dict hperm hentries

/-- A key `extra` is never written. -/
theorem lookup_extra_saved (hsaved : saveJetsonConfig c saved) :
    Yaml.lookup "extra" saved.entries = none := by
  obtain ⟨fs, rfl, hfs⟩ := hsaved.of_dict
  rw [Yaml.lookup_eq_none_iff, Yaml.entries, ← hfs.perm_keys.mem_iff]
  exact Yaml.str_notMem_keys_pop

/-- What comes back equal had no key `extra`. -/
theorem extra_notMem_of_equal {path : String} {c' : JetsonConfig}
    (hsaved : saveJetsonConfig c saved)
    (hload : loadJetsonConfig py path (.document saved) = .ok c') (hequal : c.Equal c') :
    .str "extra" ∉ Yaml.keys c.extra.entries := by
  obtain ⟨others, hothers, hreordered⟩ := hequal.extra.of_dict
  obtain rfl := Yaml.dict.inj hothers
  rw [hreordered.perm_keys.mem_iff]
  exact (extra_mem_keys_iff hload).mpr (lookup_extra_saved hsaved)

end Saved

/-- The settings of both files come back from what is saved of them, those of the Jetson exactly
when its document has no key `extra`. -/
theorem config_roundTrip_iff {path vslamPath : String} {raw rawVslam saved : Yaml}
    {c : JetsonConfig} {v : VslamConfig}
    (hload : loadJetsonConfig py path (.document raw) = .ok c)
    (hloadVslam : loadVslamConfig py vslamPath (.document rawVslam) = .ok v)
    (hsaved : saveJetsonConfig c saved) :
    ((∃ c', loadJetsonConfig py path (.document saved) = .ok c' ∧ c.Equal c') ↔
      Yaml.lookup "extra" raw.entries = none) ∧
    loadVslamConfig py vslamPath (saveVslamConfig v) = .ok v := by
  refine ⟨?_, loadVslamConfig_save (loadVslamConfig_valid hloadVslam)⟩
  rw [← extra_mem_keys_iff hload]
  constructor
  · rintro ⟨c', hload', hequal⟩
    exact extra_notMem_of_equal hsaved hload' hequal
  · intro hextra
    exact loadJetsonConfig_save (loadJetsonConfig_document hload).1 hextra hsaved

/-- A directory, and a key that the loader does not know. -/
def shedRaw : Yaml :=
  .dict [(.str "log_dir", .str "/var//log/mower/"), (.str "site", .str "shed")]

def shedConfig : JetsonConfig :=
  { logDir := some (.parse "/var/log/mower".toList)
    extra := .ofEntries [(.str "site", .str "shed")] }

def shedKiosk : List (Yaml × Yaml) :=
  [(.str "heartbeat_staleness_s", .float (.fin 60)),
    (.str "mavproxy_endpoint", .str "udp:127.0.0.1:14551"),
    (.str "mavproxy_master", .str "/dev/ttyACM0"),
    (.str "mavproxy_outputs", .list (defaultMavproxyOutputs.map .str)),
    (.str "refresh_hz", .int 1),
    (.str "service_check_units", .list (defaultKioskServiceUnits.map .str)),
    (.str "vslam_socket", .str "/run/mower/vslam-pose.sock")]

/-- With the keys sorted. -/
def shedSaved : Yaml :=
  .dict [(.str "health_interval_s", .int 60),
    (.str "kiosk", .dict shedKiosk),
    (.str "log_dir", .str "/var/log/mower"),
    (.str "oakd_required", .bool false),
    (.str "service_user_level", .bool false),
    (.str "site", .str "shed")]

theorem shedConfig_saved : saveJetsonConfig shedConfig shedSaved := by
  have hkiosk : Yaml.Same (.dict shedConfig.kiosk.entries) (.dict shedKiosk) :=
    .dict (Yaml.perm_places [5, 0, 1, 2, 4, 6, 3] (by decide)) (Yaml.sameEntries_refl _)
  apply Yaml.Same.dict (Yaml.perm_places [2, 4, 0, 1, 3, 5] (by decide))
  exact .cons (.mk _ (.refl _)) (.cons (.mk _ hkiosk) (Yaml.sameEntries_refl _))

theorem config_roundTrip_shed :
    ((∃ c', loadJetsonConfig .plain "jetson.yaml" (.document shedSaved) = .ok c' ∧
        shedConfig.Equal c') ↔ Yaml.lookup "extra" shedRaw.entries = none) ∧
      loadVslamConfig .plain "vslam.yaml" (saveVslamConfig {}) = .ok {} := by
  have hload : loadJetsonConfig .plain "jetson.yaml" (.document shedRaw) = .ok shedConfig := rfl
  have hloadVslam : loadVslamConfig .plain "vslam.yaml"
      (.document (.dict [(.str "vslam", .dict [(.str "stereo_resolution", .str "800p")])])) =
        .ok {} := rfl
  exact config_roundTrip_iff hload hloadVslam shedConfig_saved

/-- A document with a key `extra`. -/
def extraRaw : Yaml := .dict [(.str "extra", .dict [(.str "site", .str "shed")])]

theorem extraRaw_lost :
    ∃ c, loadJetsonConfig .plain "jetson.yaml" (.document extraRaw) = .ok c ∧
      ∀ saved, saveJetsonConfig c saved → ¬ ∃ c',
        loadJetsonConfig .plain "jetson.yaml" (.document saved) = .ok c' ∧ c.Equal c' := by
  refine ⟨{ extra := .ofEntries extraRaw.entries }, rfl, ?_⟩
  rintro saved hsaved ⟨c', hload, hequal⟩
  have hextra := extra_notMem_of_equal hsaved hload hequal
  simp [extraRaw, Yaml.entries, Yaml.Mapping.ofEntries, Yaml.update, Yaml.setItem,
    Yaml.keys] at hextra

end MowerRover.Config
