import MowerRover.Json.Width
import MowerRover.Kiosk.App
import MowerRover.Kiosk.JsonParser

/-!
# From the state to the display

What the display reads from the frame of a reachable state. The encoder writes
floats that are not finite, which the parser refuses together with the whole
frame, and the frame grows with the configured units; everything else comes
through. The services come through under the keys of the server, which are not
all the names the display looks for.
-/

namespace MowerRover.Kiosk

open Numeric Json

theorem getObjectItem_entries {ν : Type} (f : ν → Value) (name : String)
    {l : List (String × ν)} (hkeys : ∀ e ∈ l, cString e.1.toList = e.1.toList) :
    getObjectItem (readMembers (l.map fun e => (e.1, f e.2))) name =
      (Dict.find name l).map fun v => (f v).read := by
  induction l with
  | nil => rfl
  | cons e l ih =>
    rw [List.forall_mem_cons] at hkeys
    have hstep := ih hkeys.2
    rw [getObjectItem] at hstep ⊢
    rw [List.map_cons, readMembers, readMember, List.find?_cons, hkeys.1, Dict.find]
    by_cases he : e.1 = name
    · simp [he]
    · have hne : e.1.toList ≠ name.toList := fun h => he (String.toList_inj.mp h)
      simp only [he, hne, decide_false, if_false]
      exact hstep

theorem getObjectItem_snapshot (s : SharedState) :
    getObjectItem (readMembers s.snapshot) "vslam" =
        some (.object (readMembers (s.vslam.entries.map fun e => (e.1, .float e.2)))) ∧
      getObjectItem (readMembers s.snapshot) "services" =
        some (.object (readMembers (s.services.entries.map fun e => (e.1, .str e.2)))) := by
  constructor
  · rfl
  · rfl

/-- The updates of a poll leave the pose alone, and set services only together. -/
theorem pollHealth_frame {units : Option (List String)} {r : Readings} {u : Update}
    (hu : u ∈ pollHealth units r) (now : String) (s : SharedState) :
    (u now s).vslam = s.vslam ∧
      ((u now s).services = s.services ∨ ∃ services, checkServices units r.systemctl =
        .ok services ∧
        (u now s).services = s.services.update services.entries) := by
  rw [pollHealth, List.mem_append] at hu
  rcases hu with hu | hu
  · cases hwifi : r.wifi with
    | none => simp [wifiUpdates, hwifi] at hu
    | some wifi =>
      obtain rfl : u = _ := by simpa [wifiUpdates, hwifi] using hu
      exact ⟨rfl, .inl rfl⟩
  · cases hservices : checkServices units r.systemctl with
    | error e => simp [hservices] at hu
    | ok services =>
      simp only [hservices, List.mem_cons, List.not_mem_nil, or_false] at hu
      rcases hu with rfl | rfl | rfl
      · exact ⟨rfl, .inl rfl⟩
      · exact ⟨rfl, .inl rfl⟩
      · exact ⟨rfl, .inr ⟨services, rfl, rfl⟩⟩

theorem Reachable.vslam_keys {units : Option (List String)} {s : SharedState}
    (hs : Reachable units s) : ∀ k ∈ s.vslam.keys, k ∈ vslamKeys := by
  induction hs with
  | initial => simp [SharedState.initial, Dict.keys]
  | message hs time now msg ih =>
    obtain ⟨-, -, -, h | ⟨key, hkey, value, h⟩⟩ := handleMsg_frame time now _ msg
    · rw [h]
      exact ih
    · intro k hk
      rw [h, Dict.mem_keys_set] at hk
      rcases hk with rfl | hk
      · exact hkey
      · exact ih k hk
  | poll hs now r hu ih =>
    rw [(pollHealth_frame hu now _).1]
    exact ih

theorem getNum_vslam {units : Option (List String)} {s : SharedState} (hs : Reachable units s)
    (name : String) :
    getNum (readMembers (s.vslam.entries.map fun e => (e.1, .float e.2))) name .zero =
      (s.vslam.get? name).getD .zero := by
  have hkeys : ∀ e ∈ s.vslam.entries, cString e.1.toList = e.1.toList := by
    intro e he
    have hmem : e.1 ∈ vslamKeys := hs.vslam_keys e.1 (List.mem_map_of_mem he)
    have hall : ∀ k ∈ vslamKeys, cString k.toList = k.toList := by decide
    exact hall e.1 hmem
  rw [getNum, getObjectItem_entries Value.float name hkeys, ← Dict.get?]
  cases s.vslam.get? name <;> rfl

/-- No float of the state is an infinity or not-a-number. -/
structure SharedState.Finite (s : SharedState) : Prop where
  groundspeed : s.mav.groundspeedMs.isFinite
  hdop1 : s.mav.gps1Hdop.isFinite
  hdop2 : s.mav.gps2Hdop.isFinite
  heartbeatEpoch : s.mav.lastHeartbeatEpoch.isFinite
  gpsEpoch : s.mav.lastGpsEpoch.isFinite
  signal : s.wifiSignalDbm.isFinite
  quality : s.wifiLinkQuality.isFinite
  vslam : ∀ e ∈ s.vslam.entries, e.2.isFinite
  health : finiteMembers s.health.entries
  storage : finiteMembers s.storage.entries

theorem SharedState.finite_initial : SharedState.initial.Finite where
  groundspeed := by decide +kernel
  hdop1 := by decide +kernel
  hdop2 := by decide +kernel
  heartbeatEpoch := by decide +kernel
  gpsEpoch := by decide +kernel
  signal := by decide +kernel
  quality := by decide +kernel
  vslam := by simp [SharedState.initial]
  health := rfl
  storage := rfl

theorem SharedState.Finite.updateServices {s : SharedState} (hs : s.Finite) (now : String)
    (services : Dict String String) : (s.updateServices now services).Finite :=
  ⟨hs.groundspeed, hs.hdop1, hs.hdop2, hs.heartbeatEpoch, hs.gpsEpoch, hs.signal, hs.quality,
    hs.vslam, hs.health, hs.storage⟩

theorem finiteMembers_floats (l : List (String × Double)) :
    finiteMembers (l.map fun e => (e.1, .float e.2)) = true ↔ ∀ e ∈ l, e.2.isFinite := by
  induction l with
  | nil => simp [finiteMembers]
  | cons e l ih =>
    rw [List.map_cons, finiteMembers, Bool.and_eq_true, ih, List.forall_mem_cons]
    rfl

theorem finiteMembers_strs (l : List (String × String)) :
    finiteMembers (l.map fun e => (e.1, .str e.2)) = true := by
  induction l with
  | nil => rfl
  | cons e l ih =>
    rw [List.map_cons, finiteMembers, ih]
    rfl

theorem finiteMembers_snapshot (s : SharedState) : finiteMembers s.snapshot = true ↔ s.Finite := by
  simp only [SharedState.snapshot, MavTelemetry.asdict, finiteMembers, finiteMember, Value.finite,
    Bool.and_eq_true, Bool.true_and, Bool.and_true, finiteMembers_floats, finiteMembers_strs]
  constructor
  · rintro ⟨⟨h1, h2, h3, h4, h5⟩, h6, h7, h8, h9, h10⟩
    exact ⟨h1, h2, h3, h4, h5, h6, h7, h8, h9, h10⟩
  · rintro ⟨h1, h2, h3, h4, h5, h6, h7, h8, h9, h10⟩
    exact ⟨⟨h1, h2, h3, h4, h5⟩, h6, h7, h8, h9, h10⟩

theorem parse_payload (s : SharedState) :
    (s.Finite → parseKioskJson (payload s) = some (parseSections (readMembers s.snapshot))) ∧
      (¬ s.Finite → parseKioskJson (payload s) = none) := by
  rw [payload, parseKioskJson_dumps, ← finiteMembers_snapshot]
  cases finiteMembers s.snapshot
  · simp
  · simp

/-- The longest payload the display takes. -/
def maxPayload : ℕ := 8188

def SharedState.width (s : SharedState) : ℕ := Value.width (.dict s.snapshot)

theorem payload_length (s : SharedState) : (payload s).length = s.width :=
  encodeUtf8_dumps_length _

/-- The display accepts the frame and holds the rate and the covariance of the state; what the
state does not have yet is zero. -/
def Delivered (s : SharedState) : Prop :=
  (payload s).length ≤ maxPayload ∧ ∃ data, parseKioskJson (payload s) = some data ∧
    data.vslamRateHz = (s.vslam.get? "rate_hz").getD .zero ∧
    data.vslamCovarianceNorm = (s.vslam.get? "covariance_norm").getD .zero

theorem delivered_iff {units : Option (List String)} {s : SharedState} (hs : Reachable units s) :
    Delivered s ↔ s.Finite ∧ s.width ≤ maxPayload := by
  rw [Delivered, payload_length]
  constructor
  · rintro ⟨hlen, data, hdata, -⟩
    refine ⟨?_, hlen⟩
    by_contra hinf
    rw [(parse_payload s).2 hinf] at hdata
    cases hdata
  · rintro ⟨hfin, hlen⟩
    obtain ⟨hrate, hcov⟩ := parseSections_vslam (getObjectItem_snapshot s).1
    exact ⟨hlen, _, (parse_payload s).1 hfin, hrate.trans (getNum_vslam hs _),
      hcov.trans (getNum_vslam hs _)⟩

/-- Readings of a machine whose bridge is running. -/
def warmReadings : Readings where
  zones := [⟨"cpu-thermal".toList, .ofRat false 51.5⟩, ⟨"gpu-thermal".toList, .ofRat false 48.25⟩]
  power := ⟨some "15W", some "cool"⟩
  disks := [⟨"/", .ofInt 64, .ofInt 16, .ofInt 48, true⟩]
  wifi := none
  systemctl _ := .ok "active\n".toList

/-- Twenty poses a second with a covariance norm of a half, and then a poll. -/
def trackingState : SharedState :=
  let hz := handleMsg .zero "2026-05-01T00:00:00+00:00" .initial
    (.namedValueFloat (.text "VSLAM_HZ".toList) (.ofInt 20))
  let cov := handleMsg (.ofInt 1) "2026-05-01T00:00:01+00:00" hz
    (.namedValueFloat (.text "VSLAM_COV".toList) (.ofRat false (1 / 2)))
  healthUpdate warmReadings "2026-05-01T00:00:02+00:00" cov

theorem trackingState_reachable :
    Reachable (some ["mower-vslam-bridge.service"]) trackingState := by
  have hpoll : healthUpdate warmReadings ∈
      pollHealth (some ["mower-vslam-bridge.service"]) warmReadings := .head _
  exact .poll (.message (.message .initial _ _ _) _ _ _) _ warmReadings hpoll

theorem trackingState_finite : trackingState.Finite where
  groundspeed := by decide +kernel
  hdop1 := by decide +kernel
  hdop2 := by decide +kernel
  heartbeatEpoch := by decide +kernel
  gpsEpoch := by decide +kernel
  signal := by decide +kernel
  quality := by decide +kernel
  vslam := by decide +kernel
  health := by decide +kernel
  storage := by decide +kernel

theorem delivered_tracking : Delivered trackingState ∧
    trackingState.vslam.get? "rate_hz" = some (.ofInt 20) ∧
    trackingState.vslam.get? "covariance_norm" = some (.ofRat false (1 / 2)) :=
  ⟨(delivered_iff trackingState_reachable).mpr ⟨trackingState_finite, by decide +kernel⟩,
    by decide +kernel, by decide +kernel⟩

theorem not_finite_of_metric {name : Name} {key : String} {value : Double}
    (hkey : Dict.find name.decode vslamMetricNames = some key) (hvalue : value.isFinite = false)
    (time : Double) (now : String) (s : SharedState) :
    ¬ (handleMsg time now s (.namedValueFloat name value)).Finite := by
  intro hfin
  have hget : (s.vslam.set key value).get? key = some value := by simp [Dict.get?_set]
  have hvslam := hfin.vslam
  rw [handleMsg, handleNamedValueFloat, hkey] at hvslam
  have := hvslam (key, value) (Dict.get?_eq_some_iff.mp hget)
  rw [hvalue] at this
  cases this

/-- A first message with an infinite pose age. -/
def infiniteAge : SharedState :=
  handleMsg .zero "2026-05-01T00:00:00+00:00" .initial
    (.namedValueFloat (.text "VSLAM_AGE".toList) (.infinity false))

theorem infinite_age_not_delivered : Reachable none infiniteAge ∧ ¬ Delivered infiniteAge := by
  refine ⟨.message .initial _ _ _, fun ⟨_, data, hdata, _⟩ => ?_⟩
  have hkey : Dict.find (Name.text "VSLAM_AGE".toList).decode vslamMetricNames = some "age_ms" := by
    decide
  have hinfinite : ¬ infiniteAge.Finite := not_finite_of_metric hkey (by decide) _ _ _
  rw [(parse_payload _).2 hinfinite] at hdata
  cases hdata

theorem not_delivered_of_long_key {s : SharedState} {key state : String}
    (hmem : (key, state) ∈ s.services.entries) (hlen : maxPayload < key.length) :
    ¬ Delivered s := by
  rintro ⟨hle, -⟩
  rw [payload_length, SharedState.width] at hle
  have hkey : key.length ≤ stringWidth key.toList := by
    rw [← String.length_toList]
    exact length_le_stringWidth _
  have hentry := widthMember_le
    (List.mem_map_of_mem (f := fun e : String × String => (e.1, Value.str e.2)) hmem)
  have hsection : ("services", Value.dict (s.services.entries.map fun e => (e.1, .str e.2))) ∈
      s.snapshot := by simp [SharedState.snapshot]
  have hservices := widthMember_le hsection
  simp only [widthMember] at hentry hservices
  omega

end MowerRover.Kiosk
