import MowerRover.Dict
import MowerRover.Json.Dumps

/-!
# The state of the kiosk

All the panel data of the operational display. Every writer goes through one of
the update methods, each of which is atomic and stamps the state with the text
of the clock; the display gets the snapshot.
-/

namespace MowerRover.Kiosk

open Numeric Json

/-- The latest MAVLink telemetry. -/
structure MavTelemetry where
  armed : Bool
  mode : String
  systemStatus : ℤ
  groundspeedMs : Double
  headingDeg : ℤ
  throttlePct : ℤ
  gps1Fix : ℤ
  gps1Sats : ℤ
  gps1Hdop : Double
  gps2Fix : ℤ
  gps2Sats : ℤ
  gps2Hdop : Double
  rtk1BaselineMm : ℤ
  rtk1Iar : ℤ
  rtk2BaselineMm : ℤ
  rtk2Iar : ℤ
  lastStatustext : String
  lastHeartbeatEpoch : Double
  lastGpsEpoch : Double
  deriving DecidableEq

def MavTelemetry.initial : MavTelemetry where
  armed := false
  mode := ""
  systemStatus := 0
  groundspeedMs := .zero
  headingDeg := 0
  throttlePct := 0
  gps1Fix := 0
  gps1Sats := 0
  gps1Hdop := .ofRat false 99.99
  gps2Fix := 0
  gps2Sats := 0
  gps2Hdop := .ofRat false 99.99
  rtk1BaselineMm := 0
  rtk1Iar := 0
  rtk2BaselineMm := 0
  rtk2Iar := 0
  lastStatustext := ""
  lastHeartbeatEpoch := .zero
  lastGpsEpoch := .zero

/-- `dataclasses.asdict`. -/
def MavTelemetry.asdict (mav : MavTelemetry) : List (String × Value) :=
  [("armed", .bool mav.armed),
    ("mode", .str mav.mode),
    ("system_status", .int mav.systemStatus),
    ("groundspeed_ms", .float mav.groundspeedMs),
    ("heading_deg", .int mav.headingDeg),
    ("throttle_pct", .int mav.throttlePct),
    ("gps1_fix", .int mav.gps1Fix),
    ("gps1_sats", .int mav.gps1Sats),
    ("gps1_hdop", .float mav.gps1Hdop),
    ("gps2_fix", .int mav.gps2Fix),
    ("gps2_sats", .int mav.gps2Sats),
    ("gps2_hdop", .float mav.gps2Hdop),
    ("rtk1_baseline_mm", .int mav.rtk1BaselineMm),
    ("rtk1_iar", .int mav.rtk1Iar),
    ("rtk2_baseline_mm", .int mav.rtk2BaselineMm),
    ("rtk2_iar", .int mav.rtk2Iar),
    ("last_statustext", .str mav.lastStatustext),
    ("last_heartbeat_epoch", .float mav.lastHeartbeatEpoch),
    ("last_gps_epoch", .float mav.lastGpsEpoch)]

structure SharedState where
  mav : MavTelemetry
  wifiInterface : String
  wifiSignalDbm : Double
  wifiLinkQuality : Double
  vslam : Dict String Double
  health : Dict String Value
  storage : Dict String Value
  services : Dict String String
  lastUpdate : String

namespace SharedState

def initial : SharedState :=
  ⟨.initial, "", .zero, .zero, .empty, .empty, .empty, .empty, ""⟩

variable (s : SharedState) (now : String)

def updateMav (set : MavTelemetry → MavTelemetry) : SharedState :=
  { s with mav := set s.mav, lastUpdate := now }

def updateWifi (interface : String) (signalDbm linkQuality : Double) : SharedState :=
  { s with
    wifiInterface := interface
    wifiSignalDbm := signalDbm
    wifiLinkQuality := linkQuality
    lastUpdate := now }

def updateVslam (entries : List (String × Double)) : SharedState :=
  { s with vslam := s.vslam.update entries, lastUpdate := now }

def updateHealth (entries : List (String × Value)) : SharedState :=
  { s with health := s.health.update entries, lastUpdate := now }

def updateStorage (entries : List (String × Value)) : SharedState :=
  { s with storage := s.storage.update entries, lastUpdate := now }

def updateServices (services : Dict String String) : SharedState :=
  { s with services := s.services.update services.entries, lastUpdate := now }

def snapshot : List (String × Value) :=
  [("mav", .dict s.mav.asdict),
    ("wifi_interface", .str s.wifiInterface),
    ("wifi_signal_dbm", .float s.wifiSignalDbm),
    ("wifi_link_quality", .float s.wifiLinkQuality),
    ("vslam", .dict (s.vslam.entries.map fun e => (e.1, .float e.2))),
    ("health", .dict s.health.entries),
    ("storage", .dict s.storage.entries),
    ("services", .dict (s.services.entries.map fun e => (e.1, .str e.2))),
    ("last_update", .str s.lastUpdate)]

end SharedState

/-- What is pushed to the display, without the length before it. -/
def payload (s : SharedState) : List UInt8 := encodeUtf8 (dumps (.dict s.snapshot))

end MowerRover.Kiosk
