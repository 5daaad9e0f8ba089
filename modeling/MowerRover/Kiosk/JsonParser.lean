import MowerRover.Json.RoundTrip

/-!
# The frame parser of the display

The renderer reads a frame with cJSON, taken as a reader of RFC 8259, and copies
the fields it shows into a flat record. A missing section leaves its fields
zero; texts are C strings, cut at the first zero byte and at the size of their
buffers.
-/

namespace MowerRover.Kiosk

open Numeric Json

abbrev Members := List (List Char × Item)

def cString (cs : List Char) : List Char := cs.takeWhile (· ≠ Char.ofNat 0)

/-- `cJSON_GetObjectItemCaseSensitive`; names are compared as C strings. -/
def getObjectItem (ms : Members) (name : String) : Option Item :=
  (ms.find? fun m => cString m.1 = name.toList).map Prod.snd

/-- `item->valueint`: toward zero, clamped to the range of an `int`. -/
def valueInt (x : Double) : ℤ :=
  match x.value with
  | .fin s q => max (-2 ^ 31) (min (2 ^ 31 - 1) (if s then -⌊(q : ℚ)⌋ else ⌊(q : ℚ)⌋))
  | .inf s => if s then -2 ^ 31 else 2 ^ 31 - 1
  | .nan => 0

def getStr (ms : Members) (name : String) : Option (List Char) :=
  match getObjectItem ms name with
  | some (.str cs) => some cs
  | _ => none

def getNum (ms : Members) (name : String) (fallback : Double) : Double :=
  match getObjectItem ms name with
  | some (.num x) => x
  | _ => fallback

def getInt (ms : Members) (name : String) (fallback : ℤ) : ℤ :=
  match getObjectItem ms name with
  | some (.num x) => valueInt x
  | _ => fallback

def getBool (ms : Members) (name : String) (fallback : Bool) : Bool :=
  match getObjectItem ms name with
  | some (.bool b) => b
  | _ => fallback

/-- `KIOSK_STR_MAX`. -/
def kioskStrMax : ℕ := 128

/-- The bytes before the terminating zero after `safe_strcpy`. -/
def safeStrcpy (src : Option (List Char)) : List UInt8 :=
  match src with
  | some cs => (encodeUtf8 (cString cs)).take (kioskStrMax - 1)
  | none => []

structure KioskData where
  mavArmed : Bool
  mavMode : List UInt8
  mavSystemStatus : ℤ
  mavGroundspeedMs : Double
  mavHeadingDeg : ℤ
  mavThrottlePct : ℤ
  mavGps1Fix : ℤ
  mavGps1Sats : ℤ
  mavGps1Hdop : Double
  mavGps2Fix : ℤ
  mavGps2Sats : ℤ
  mavGps2Hdop : Double
  mavRtk1BaselineMm : ℤ
  mavRtk1Iar : ℤ
  mavRtk2BaselineMm : ℤ
  mavRtk2Iar : ℤ
  mavLastStatustext : List UInt8
  mavLastHeartbeatEpoch : Double
  mavLastGpsEpoch : Double
  wifiInterface : List UInt8
  wifiSignalDbm : Double
  wifiLinkQuality : Double
  vslamRateHz : Double
  vslamConfidence : ℤ
  vslamAgeMs : ℤ
  vslamCovarianceNorm : Double
  healthCpuTempC : Double
  healthGpuTempC : Double
  healthPowerMode : List UInt8
  healthFanStatus : List UInt8
  storageNvmePct : Double
  storageNvmeFreeGb : List UInt8
  storageRootPct : Double
  svcSlamNode : List UInt8
  svcVslamBridge : List UInt8
  svcHealthMonitor : List UInt8
  svcMavproxy : List UInt8
  lastUpdate : List UInt8
  deriving DecidableEq

/-- After `memset`. -/
def KioskData.zeroed : KioskData where
  mavArmed := false
  mavMode := []
  mavSystemStatus := 0
  mavGroundspeedMs := .zero
  mavHeadingDeg := 0
  mavThrottlePct := 0
  mavGps1Fix := 0
  mavGps1Sats := 0
  mavGps1Hdop := .zero
  mavGps2Fix := 0
  mavGps2Sats := 0
  mavGps2Hdop := .zero
  mavRtk1BaselineMm := 0
  mavRtk1Iar := 0
  mavRtk2BaselineMm := 0
  mavRtk2Iar := 0
  mavLastStatustext := []
  mavLastHeartbeatEpoch := .zero
  mavLastGpsEpoch := .zero
  wifiInterface := []
  wifiSignalDbm := .zero
  wifiLinkQuality := .zero
  vslamRateHz := .zero
  vslamConfidence := 0
  vslamAgeMs := 0
  vslamCovarianceNorm := .zero
  healthCpuTempC := .zero
  healthGpuTempC := .zero
  healthPowerMode := []
  healthFanStatus := []
  storageNvmePct := .zero
  storageNvmeFreeGb := []
  storageRootPct := .zero
  svcSlamNode := []
  svcVslamBridge := []
  svcHealthMonitor := []
  svcMavproxy := []
  lastUpdate := []

def parseMav (mav : Option Item) (out : KioskData) : KioskData :=
  match mav with
  | some (.object mav) =>
    { out with
      mavArmed := getBool mav "armed" false
      mavMode := safeStrcpy (getStr mav "mode")
      mavSystemStatus := getInt mav "system_status" 0
      mavGroundspeedMs := getNum mav "groundspeed_ms" .zero
      mavHeadingDeg := getInt mav "heading_deg" 0
      mavThrottlePct := getInt mav "throttle_pct" 0
      mavGps1Fix := getInt mav "gps1_fix" 0
      mavGps1Sats := getInt mav "gps1_sats" 0
      mavGps1Hdop := getNum mav "gps1_hdop" (.ofRat false 99.99)
      mavGps2Fix := getInt mav "gps2_fix" 0
      mavGps2Sats := getInt mav "gps2_sats" 0
      mavGps2Hdop := getNum mav "gps2_hdop" (.ofRat false 99.99)
      mavRtk1BaselineMm := getInt mav "rtk1_baseline_mm" 0
      mavRtk1Iar := getInt mav "rtk1_iar" 0
      mavRtk2BaselineMm := getInt mav "rtk2_baseline_mm" 0
      mavRtk2Iar := getInt mav "rtk2_iar" 0
      mavLastStatustext := safeStrcpy (getStr mav "last_statustext")
      mavLastHeartbeatEpoch := getNum mav "last_heartbeat_epoch" .zero
      mavLastGpsEpoch := getNum mav "last_gps_epoch" .zero }
  | _ => out

def parseVslam (vslam : Option Item) (out : KioskData) : KioskData :=
  match vslam with
  | some (.object vslam) =>
    { out with
      vslamRateHz := getNum vslam "rate_hz" .zero
      vslamConfidence := getInt vslam "confidence" 0
      vslamAgeMs := getInt vslam "age_ms" 0
      vslamCovarianceNorm := getNum vslam "covariance_norm" .zero }
  | _ => out

def parseHealth (health : Option Item) (out : KioskData) : KioskData :=
  match health with
  | some (.object health) =>
    { out with
      healthCpuTempC := getNum health "cpu_temp_c" .zero
      healthGpuTempC := getNum health "gpu_temp_c" .zero
      healthPowerMode := safeStrcpy (getStr health "power_mode")
      healthFanStatus := safeStrcpy (getStr health "fan_status") }
  | _ => out

def parseStorage (storage : Option Item) (out : KioskData) : KioskData :=
  match storage with
  | some (.object storage) =>
    { out with
      storageNvmePct := getNum storage "nvme_pct" .zero
      storageNvmeFreeGb := safeStrcpy (getStr storage "nvme_free_gb")
      storageRootPct := getNum storage "root_pct" .zero }
  | _ => out

def parseServices (services : Option Item) (out : KioskData) : KioskData :=
  match services with
  | some (.object services) =>
    { out with
      svcSlamNode := safeStrcpy (getStr services "slam_node")
      svcVslamBridge := safeStrcpy (getStr services "vslam_bridge")
      svcHealthMonitor := safeStrcpy (getStr services "health_monitor")
      svcMavproxy := safeStrcpy (getStr services "mavproxy") }
  | _ => out

def parseWifi (root : Members) (out : KioskData) : KioskData :=
  { out with
    wifiInterface := safeStrcpy (getStr root "wifi_interface")
    wifiSignalDbm := getNum root "wifi_signal_dbm" .zero
    wifiLinkQuality := getNum root "wifi_link_quality" .zero }

/-- The sections of the root object, in the order they are copied. -/
def parseSections (root : Members) : KioskData :=
  let out := parseMav (getObjectItem root "mav") .zeroed
  let out := parseWifi root out
  let out := parseVslam (getObjectItem root "vslam") out
  let out := parseHealth (getObjectItem root "health") out
  let out := parseStorage (getObjectItem root "storage") out
  let out := parseServices (getObjectItem root "services") out
  { out with lastUpdate := safeStrcpy (getStr root "last_update") }

/-- `parse_kiosk_json`; nothing when it returns false. -/
def parseKioskJson (bytes : List UInt8) : Option KioskData :=
  if bytes = [] then none
  else
    match parseBytes bytes with
    | some (.object root) => some (parseSections root)
    | _ => none

theorem parseHealth_vslam (health : Option Item) (out : KioskData) :
    (parseHealth health out).vslamRateHz = out.vslamRateHz ∧
      (parseHealth health out).vslamCovarianceNorm = out.vslamCovarianceNorm := by
  unfold parseHealth
  split <;> exact ⟨rfl, rfl⟩

theorem parseStorage_vslam (storage : Option Item) (out : KioskData) :
    (parseStorage storage out).vslamRateHz = out.vslamRateHz ∧
      (parseStorage storage out).vslamCovarianceNorm = out.vslamCovarianceNorm := by
  unfold parseStorage
  split <;> exact ⟨rfl, rfl⟩

theorem parseServices_vslam (services : Option Item) (out : KioskData) :
    (parseServices services out).vslamRateHz = out.vslamRateHz ∧
      (parseServices services out).vslamCovarianceNorm = out.vslamCovarianceNorm := by
  unfold parseServices
  split <;> exact ⟨rfl, rfl⟩

theorem parseSections_vslam {root vslam : Members}
    (h : getObjectItem root "vslam" = some (.object vslam)) :
    (parseSections root).vslamRateHz = getNum vslam "rate_hz" .zero ∧
      (parseSections root).vslamCovarianceNorm = getNum vslam "covariance_norm" .zero := by
  unfold parseSections
  simp only [h, parseServices_vslam, parseStorage_vslam, parseHealth_vslam]
  exact ⟨rfl, rfl⟩

theorem parseSections_services {root services : Members}
    (h : getObjectItem root "services" = some (.object services)) :
    (parseSections root).svcSlamNode = safeStrcpy (getStr services "slam_node") ∧
      (parseSections root).svcVslamBridge = safeStrcpy (getStr services "vslam_bridge") ∧
      (parseSections root).svcHealthMonitor = safeStrcpy (getStr services "health_monitor") ∧
      (parseSections root).svcMavproxy = safeStrcpy (getStr services "mavproxy") := by
  unfold parseSections
  simp only [h]
  exact ⟨rfl, rfl, rfl, rfl⟩

theorem parseKioskJson_dumps (ms : List (String × Value)) :
    parseKioskJson (encodeUtf8 (dumps (.dict ms))) =
      if finiteMembers ms then some (parseSections (readMembers ms)) else none := by
  have hne : encodeUtf8 (dumps (.dict ms)) ≠ [] := by
    obtain ⟨c, cs, htext, -⟩ := dumps_start (.dict ms)
    rw [htext]
    exact encodeUtf8_ne_nil (List.cons_ne_nil c cs)
  rw [parseKioskJson, if_neg hne, parseBytes_dumps, Value.finite]
  cases hfin : finiteMembers ms
  · rfl
  · rfl

end MowerRover.Kiosk
