import MowerRover.Kiosk.Telemetry

/-!
# The data server of the kiosk

One thread handles the MAVLink messages, another polls the slow state of the
machine, and a third pushes a snapshot to the display. The updates of the first
two interleave, so a snapshot may fall between any two of them.
-/

namespace MowerRover.Kiosk

open Numeric Json

structure ThermalZone where
  name : List Char
  tempC : Double

structure PowerState where
  modeName : Option String
  fanProfile : Option String

structure DiskUsage where
  mountPoint : String
  totalGb : Double
  usedGb : Double
  freeGb : Double
  isNvme : Bool

structure WifiStatus where
  interface : String
  linkQuality : Double
  signalDbm : Double

/-- What `subprocess.run` raises. -/
inductive RunError
  | timeoutExpired
  | fileNotFoundError
  | osError
  | valueError
  deriving DecidableEq

/-- The readings of one cycle; `systemctl` gives the standard output for a unit. -/
structure Readings where
  zones : List ThermalZone
  power : PowerState
  disks : List DiskUsage
  wifi : Option WifiStatus
  systemctl : String → Except RunError (List Char)

def defaultKioskServiceUnits : List String :=
  ["mower-health.service", "mower-vslam.service", "mower-vslam-bridge.service",
    "mower-weston.service", "mower-mavproxy.service"]

def stripPrefix (cs name : List Char) : List Char :=
  if cs <+: name then name.drop cs.length else name

def stripSuffix (cs name : List Char) : List Char :=
  if cs <:+ name then name.take (name.length - cs.length) else name

def unitDisplayKey (unit : String) : String :=
  let name := stripSuffix ".service".toList (stripPrefix "mower-".toList unit.toList)
  String.ofList (name.map fun c => if c = '-' then '_' else c)

/-- `proc.stdout.strip() or "unknown"`. -/
def status (stdout : List Char) : List Char :=
  if pyStrip stdout = [] then "unknown".toList else pyStrip stdout

/-- The state of a unit; an argument `systemctl` cannot be given raises through. -/
def activeState : Except RunError (List Char) → Except RunError String
  | .ok stdout => .ok (String.ofList (status stdout))
  | .error .valueError => .error .valueError
  | .error _ => .ok "unknown"

theorem status_ne_nil (stdout : List Char) : status stdout ≠ [] := by
  unfold status
  split_ifs with h
  · decide
  · exact h

def checkServices (units : Option (List String))
    (systemctl : String → Except RunError (List Char)) : Except RunError (Dict String String) :=
  (units.getD defaultKioskServiceUnits).foldlM
    (fun result unit => do
      let state ← activeState (systemctl unit)
      return result.set (unitDisplayKey unit) state)
    .empty

theorem foldlM_services {systemctl : String → Except RunError (List Char)} {units : List String}
    {result services : Dict String String}
    (h : units.foldlM
      (fun result unit => do
        let state ← activeState (systemctl unit)
        return result.set (unitDisplayKey unit) state)
      result = .ok services) :
    (∀ k, k ∈ services.keys ↔ k ∈ result.keys ∨ k ∈ units.map unitDisplayKey) ∧
    (∀ k, k ∉ units.map unitDisplayKey → services.get? k = result.get? k) ∧
    ∀ unit ∈ units, (units.map unitDisplayKey).Nodup →
      ∃ state, activeState (systemctl unit) = .ok state ∧
        services.get? (unitDisplayKey unit) = some state := by
  induction units generalizing result with
  | nil =>
    obtain rfl : result = services := Except.ok.inj h
    simp
  | cons unit units ih =>
    rw [List.foldlM_cons] at h
    cases hstate : activeState (systemctl unit) with
    | error e =>
      rw [hstate] at h
      cases h
    | ok state =>
      rw [hstate] at h
      obtain ⟨hkeys, hother, hunits⟩ := ih h
      refine ⟨?_, ?_, ?_⟩
      · intro k
        rw [hkeys, Dict.mem_keys_set, List.map_cons, List.mem_cons]
        tauto
      · intro k hk
        rw [List.map_cons, List.mem_cons, not_or] at hk
        rw [hother k hk.2, Dict.get?_set, if_neg hk.1]
      · intro unit' hmem hnodup
        rw [List.map_cons, List.nodup_cons] at hnodup
        rcases List.mem_cons.mp hmem with rfl | hmem
        · exact ⟨state, hstate, by rw [hother _ hnodup.1, Dict.get?_set, if_pos rfl]⟩
        · exact hunits unit' hmem hnodup.2

theorem checkServices_keys {units : Option (List String)}
    {systemctl : String → Except RunError (List Char)} {services : Dict String String}
    (h : checkServices units systemctl = .ok services) (k : String) :
    k ∈ services.keys ↔ k ∈ (units.getD defaultKioskServiceUnits).map unitDisplayKey := by
  rw [(foldlM_services h).1]
  simp [Dict.keys]

/-- The check fails only on a unit `systemctl` cannot be given. -/
theorem checkServices_ok {units : Option (List String)}
    {systemctl : String → Except RunError (List Char)}
    (h : ∀ unit ∈ units.getD defaultKioskServiceUnits, systemctl unit ≠ .error .valueError) :
    ∃ services, checkServices units systemctl = .ok services := by
  unfold checkServices
  generalize units.getD defaultKioskServiceUnits = names at h
  generalize (Dict.empty : Dict String String) = result
  induction names generalizing result with
  | nil => exact ⟨result, rfl⟩
  | cons unit names ih =>
    rw [List.forall_mem_cons] at h
    obtain ⟨state, hstate⟩ : ∃ state, activeState (systemctl unit) = .ok state := by
      cases hrun : systemctl unit with
      | ok stdout => exact ⟨_, rfl⟩
      | error e =>
        cases e with
        | valueError => exact absurd hrun h.1
        | _ => exact ⟨_, rfl⟩
    rw [List.foldlM_cons, hstate]
    exact ih h.2 _

/-- The highest temperature above zero among the zones whose name has the word in it. -/
def hottest (word : List Char) (zones : List ThermalZone) : Double :=
  zones.foldl
    (fun temp zone =>
      if word <:+: zone.name.map Char.toLower ∧ temp.lt zone.tempC then zone.tempC else temp)
    .zero

/-- `f"{x:.1f}"`. -/
def fixed1 (x : Double) : List Char :=
  match x.value with
  | .fin s q =>
    let tenths := (roundHalfEven (q * 10)).natAbs
    (if s then ['-'] else []) ++ (decimalDigits (tenths / 10)).map digitChar ++
      ['.', digitChar (tenths % 10)]
  | .inf s => (if s then "-inf" else "inf").toList
  | .nan => "nan".toList

structure Storage where
  nvmePct : Double
  nvmeFreeGb : String
  rootPct : Double

def diskStorage (disks : List DiskUsage) : Storage :=
  disks.foldl
    (fun storage d =>
      let pct := (d.usedGb.div d.totalGb).mul (.ofInt 100)
      let storage :=
        if d.isNvme then
          { storage with
            nvmePct := if Double.zero.lt d.totalGb then pct else storage.nvmePct
            nvmeFreeGb := String.ofList (fixed1 d.freeGb ++ " GB".toList) }
        else storage
      if d.mountPoint = "/" ∧ Double.zero.lt d.totalGb then { storage with rootPct := pct }
      else storage)
    ⟨.zero, "--", .zero⟩

def orDashes (text : Option String) : String := if text.getD "" = "" then "--" else text.getD ""

abbrev Update := String → SharedState → SharedState

def wifiUpdates (wifi : Option WifiStatus) : List Update :=
  match wifi with
  | some wifi => [fun now s => s.updateWifi now wifi.interface wifi.signalDbm wifi.linkQuality]
  | none => []

def healthUpdate (r : Readings) : Update := fun now s =>
  s.updateHealth now
    [("cpu_temp_c", .float (hottest "cpu".toList r.zones).round1),
      ("gpu_temp_c", .float (hottest "gpu".toList r.zones).round1),
      ("power_mode", .str (orDashes r.power.modeName)),
      ("fan_status", .str (orDashes r.power.fanProfile))]

def storageUpdate (r : Readings) : Update := fun now s =>
  let storage := diskStorage r.disks
  s.updateStorage now
    [("nvme_pct", .float storage.nvmePct.round1),
      ("nvme_free_gb", .str storage.nvmeFreeGb),
      ("root_pct", .float storage.rootPct.round1)]

/-- The updates of one cycle in their order. -/
def pollHealth (units : Option (List String)) (r : Readings) : List Update :=
  wifiUpdates r.wifi ++
    match checkServices units r.systemctl with
    | .error _ => []
    | .ok services =>
      [healthUpdate r, storageUpdate r, fun now s => s.updateServices now services]

/-- The states a snapshot may be taken of, with the configured units. -/
inductive Reachable (units : Option (List String)) : SharedState → Prop
  | initial : Reachable units .initial
  | message {s : SharedState} (hs : Reachable units s) (time : Double) (now : String) (msg : Msg) :
      Reachable units (handleMsg time now s msg)
  | poll {s : SharedState} (hs : Reachable units s) (now : String) (r : Readings) {u : Update}
      (hu : u ∈ pollHealth units r) : Reachable units (u now s)

end MowerRover.Kiosk
