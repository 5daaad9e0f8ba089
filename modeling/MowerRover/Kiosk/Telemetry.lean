import MowerRover.Kiosk.State
import MowerRover.Params.Mav

/-!
# MAVLink telemetry of the kiosk

What each message of the reader loop does to the shared state. A field the
message does not carry takes the default its handler gives.
-/

namespace MowerRover.Kiosk

open Numeric Json

/-- A NAMED_VALUE_FLOAT name, as pymavlink returns it in one version or another. -/
inductive Name
  | bytes (bs : List UInt8)
  | text (cs : List Char)

inductive Msg
  | heartbeat (baseMode customMode : Option ℕ) (systemStatus : Option ℤ)
  | vfrHud (groundspeed : Option Double) (heading throttle : Option ℤ)
  | gpsRaw (first : Bool) (fixType satellitesVisible : Option ℤ) (eph : Option UInt16)
  | gpsRtk (first : Bool) (baselineAMm iarNumHypotheses : Option ℤ)
  | namedValueFloat (name : Name) (value : Double)
  | statustext (text : Option String)
  | other

def roverModes : List (ℕ × String) :=
  [(0, "MANUAL"), (1, "ACRO"), (3, "STEERING"), (4, "HOLD"), (5, "LOITER"), (6, "FOLLOW"),
    (7, "SIMPLE"), (10, "AUTO"), (11, "RTL"), (12, "SMART_RTL"), (15, "GUIDED")]

def modeName (customMode : ℕ) : String :=
  (Dict.find customMode roverModes).getD s!"MODE_{customMode}"

def vslamMetricNames : List (List Char × String) :=
  [("VSLAM_HZ".toList, "rate_hz"), ("VSLAM_CONF".toList, "confidence"),
    ("VSLAM_AGE".toList, "age_ms"), ("VSLAM_COV".toList, "covariance_norm")]

def rstripNul (cs : List Char) : List Char :=
  (cs.reverse.dropWhile (· = Char.ofNat 0)).reverse

/-- The name without the padding behind it. -/
def Name.decode : Name → List Char
  | .bytes bs => (bs.reverse.dropWhile (· = 0)).reverse.map Params.asciiChar
  | .text cs => rstripNul cs

/-- `eph / 100.0`; 65535 is the value of an unknown dilution. -/
def hdop : Option UInt16 → Double
  | some eph => if eph = 65535 then .ofRat false 99.99 else .ofRat false (eph.toNat / 100)
  | none => .ofRat false 99.99

section Handlers

variable (time : Double) (now : String) (s : SharedState)

def handleHeartbeat (baseMode customMode : Option ℕ) (systemStatus : Option ℤ) : SharedState :=
  s.updateMav now fun mav =>
    { mav with
      armed := (baseMode.getD 0).testBit 7
      mode := modeName (customMode.getD 0)
      systemStatus := systemStatus.getD 0
      lastHeartbeatEpoch := time }

def handleVfrHud (groundspeed : Option Double) (heading throttle : Option ℤ) : SharedState :=
  s.updateMav now fun mav =>
    { mav with
      groundspeedMs := groundspeed.getD .zero
      headingDeg := heading.getD 0
      throttlePct := throttle.getD 0 }

def handleGpsRaw (first : Bool) (fixType satellitesVisible : Option ℤ) (eph : Option UInt16) :
    SharedState :=
  s.updateMav now fun mav =>
    if first then
      { mav with
        gps1Fix := fixType.getD 0
        gps1Sats := satellitesVisible.getD 0
        gps1Hdop := hdop eph
        lastGpsEpoch := time }
    else
      { mav with
        gps2Fix := fixType.getD 0
        gps2Sats := satellitesVisible.getD 0
        gps2Hdop := hdop eph
        lastGpsEpoch := time }

def handleGpsRtk (first : Bool) (baselineAMm iarNumHypotheses : Option ℤ) : SharedState :=
  s.updateMav now fun mav =>
    if first then
      { mav with rtk1BaselineMm := baselineAMm.getD 0, rtk1Iar := iarNumHypotheses.getD 0 }
    else
      { mav with rtk2BaselineMm := baselineAMm.getD 0, rtk2Iar := iarNumHypotheses.getD 0 }

def handleNamedValueFloat (name : Name) (value : Double) : SharedState :=
  match Dict.find name.decode vslamMetricNames with
  | some key => s.updateVslam now [(key, value)]
  | none => s

def handleStatustext (text : Option String) : SharedState :=
  if text.getD "" = "" then s
  else s.updateMav now fun mav => { mav with lastStatustext := text.getD "" }

/-- One turn of the reader loop. -/
def handleMsg : Msg → SharedState
  | .heartbeat baseMode customMode systemStatus =>
    handleHeartbeat time now s baseMode customMode systemStatus
  | .vfrHud groundspeed heading throttle => handleVfrHud now s groundspeed heading throttle
  | .gpsRaw first fixType satellitesVisible eph =>
    handleGpsRaw time now s first fixType satellitesVisible eph
  | .gpsRtk first baselineAMm iarNumHypotheses =>
    handleGpsRtk now s first baselineAMm iarNumHypotheses
  | .namedValueFloat name value => handleNamedValueFloat now s name value
  | .statustext text => handleStatustext now s text
  | .other => s

end Handlers

def vslamKeys : List String := vslamMetricNames.map Prod.snd

/-- A message touches the telemetry, one pose metric and the stamp. -/
theorem handleMsg_frame (time : Double) (now : String) (s : SharedState) (msg : Msg) :
    (handleMsg time now s msg).services = s.services ∧
    (handleMsg time now s msg).health = s.health ∧
    (handleMsg time now s msg).storage = s.storage ∧
    ((handleMsg time now s msg).vslam = s.vslam ∨
      ∃ key ∈ vslamKeys, ∃ value,
        (handleMsg time now s msg).vslam = s.vslam.set key value) := by
  cases msg with
  | heartbeat baseMode customMode systemStatus => exact ⟨rfl, rfl, rfl, .inl rfl⟩
  | vfrHud groundspeed heading throttle => exact ⟨rfl, rfl, rfl, .inl rfl⟩
  | gpsRaw first fixType satellitesVisible eph => exact ⟨rfl, rfl, rfl, .inl rfl⟩
  | gpsRtk first baselineAMm iarNumHypotheses => exact ⟨rfl, rfl, rfl, .inl rfl⟩
  | namedValueFloat name value =>
    rw [handleMsg, handleNamedValueFloat]
    cases hkey : Dict.find name.decode vslamMetricNames with
    | none => exact ⟨rfl, rfl, rfl, .inl rfl⟩
    | some key =>
      have hmem : key ∈ vslamKeys := List.mem_map_of_mem (f := Prod.snd) (Dict.mem_of_find hkey)
      exact ⟨rfl, rfl, rfl, .inr ⟨key, hmem, value, rfl⟩⟩
  | statustext text =>
    rw [handleMsg, handleStatustext]
    split_ifs
    · exact ⟨rfl, rfl, rfl, .inl rfl⟩
    · exact ⟨rfl, rfl, rfl, .inl rfl⟩
  | other => exact ⟨rfl, rfl, rfl, .inl rfl⟩

end MowerRover.Kiosk
