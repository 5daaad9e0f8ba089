import MowerRover.Kiosk.Delivery

/-!
# The services card

The server keys the state of a unit by the name of the unit, and the display
looks the services up by names of its own. For the default units two of the four
names are keys of the server: the other two fields of the card stay empty.
-/

namespace MowerRover.Kiosk

open Numeric Json

def defaultKeys : List String := ["health", "vslam", "vslam_bridge", "weston", "mavproxy"]

theorem defaultKeys_eq : defaultKioskServiceUnits.map unitDisplayKey = defaultKeys := by
  decide +kernel

theorem Reachable.services_keys {units : Option (List String)} {s : SharedState}
    (hs : Reachable units s) :
    ∀ k ∈ s.services.keys, k ∈ (units.getD defaultKioskServiceUnits).map unitDisplayKey := by
  induction hs with
  | initial => simp [SharedState.initial, Dict.keys]
  | message hs time now msg ih =>
    rw [(handleMsg_frame time now _ msg).1]
    exact ih
  | poll hs now r hu ih =>
    obtain h | ⟨services, hservices, h⟩ := (pollHealth_frame hu now _).2
    · rw [h]
      exact ih
    · intro k hk
      rw [h, Dict.mem_keys_update] at hk
      rcases hk with hk | hk
      · exact ih k hk
      · exact (checkServices_keys hservices k).mp hk

theorem eq_parseSections {s : SharedState} {data : KioskData}
    (h : parseKioskJson (payload s) = some data) :
    data = parseSections (readMembers s.snapshot) := by
  by_cases hfin : s.Finite
  · exact Option.some.inj (h.symm.trans ((parse_payload s).1 hfin))
  · rw [(parse_payload s).2 hfin] at h
    cases h

/-- A check in which `systemctl` answers for every unit. -/
def answered (outputs : String → List Char) : String → Except RunError (List Char) :=
  fun unit => .ok (outputs unit)

theorem Reachable.updateServices {units : Option (List String)} {s : SharedState}
    (hs : Reachable units s) {systemctl : String → Except RunError (List Char)}
    {services : Dict String String} (h : checkServices units systemctl = .ok services)
    (now : String) : Reachable units (s.updateServices now services) := by
  have hmem : (fun now s => SharedState.updateServices s now services) ∈
      pollHealth units ⟨[], ⟨none, none⟩, [], none, systemctl⟩ := by
    simp [pollHealth, h]
  exact .poll hs now _ hmem

section Default

variable {units : Option (List String)} {s : SharedState}
  (hunits : units.getD defaultKioskServiceUnits = defaultKioskServiceUnits)

include hunits

theorem Reachable.default_keys (hs : Reachable units s) : ∀ k ∈ s.services.keys,
    k ∈ defaultKeys := by
  intro k hk
  have hmem := hs.services_keys k hk
  rwa [hunits, defaultKeys_eq] at hmem

theorem getStr_services (hs : Reachable units s) (name : String) :
    getStr (readMembers (s.services.entries.map fun e => (e.1, .str e.2))) name =
      (s.services.get? name).map String.toList := by
  have hkeys : ∀ e ∈ s.services.entries, cString e.1.toList = e.1.toList := by
    intro e he
    have hmem : e.1 ∈ defaultKeys := hs.default_keys hunits e.1 (List.mem_map_of_mem he)
    have hall : ∀ k ∈ defaultKeys, cString k.toList = k.toList := by decide
    exact hall e.1 hmem
  rw [getStr, getObjectItem_entries Value.str name hkeys, ← Dict.get?]
  cases s.services.get? name <;> rfl

theorem parseSections_default (hs : Reachable units s) :
    (parseSections (readMembers s.snapshot)).svcSlamNode = [] ∧
      (parseSections (readMembers s.snapshot)).svcVslamBridge =
        safeStrcpy ((s.services.get? "vslam_bridge").map String.toList) ∧
      (parseSections (readMembers s.snapshot)).svcHealthMonitor = [] ∧
      (parseSections (readMembers s.snapshot)).svcMavproxy =
        safeStrcpy ((s.services.get? "mavproxy").map String.toList) := by
  obtain ⟨hslam, hbridge, hhealth, hmav⟩ := parseSections_services (getObjectItem_snapshot s).2
  have habsent (name : String) (hname : name ∉ defaultKeys) : s.services.get? name = none :=
    Dict.get?_eq_none_iff.mpr fun hk => hname (hs.default_keys hunits name hk)
  rw [hslam, hbridge, hhealth, hmav]
  simp only [getStr_services hunits hs, habsent "slam_node" (by decide),
    habsent "health_monitor" (by decide), Option.map_none, safeStrcpy, and_self]

end Default

/-- The display reads the frame, and its four fields are the outputs for the four units. -/
def ServicesShown (outputs : String → List Char) (s : SharedState) : Prop :=
  ∃ data, parseKioskJson (payload s) = some data ∧
    data.svcSlamNode = encodeUtf8 (status (outputs "mower-vslam.service")) ∧
    data.svcVslamBridge = encodeUtf8 (status (outputs "mower-vslam-bridge.service")) ∧
    data.svcHealthMonitor = encodeUtf8 (status (outputs "mower-health.service")) ∧
    data.svcMavproxy = encodeUtf8 (status (outputs "mower-mavproxy.service"))

/-- Whatever the units answer, the card does not show it. -/
theorem services_not_shown {units : Option (List String)} {s : SharedState}
    (hunits : units.getD defaultKioskServiceUnits = defaultKioskServiceUnits)
    (hs : Reachable units s) (now : String) (outputs : String → List Char) :
    ∃ services, checkServices units (answered outputs) = .ok services ∧
      ¬ ServicesShown outputs (s.updateServices now services) := by
  have hok : ∀ unit ∈ units.getD defaultKioskServiceUnits,
      answered outputs unit ≠ .error .valueError := by
    intro unit _
    simp [answered]
  obtain ⟨services, hservices⟩ := checkServices_ok hok
  refine ⟨services, hservices, ?_⟩
  rintro ⟨data, hdata, hslam, -⟩
  have hempty := (parseSections_default hunits (hs.updateServices hservices now)).1
  rw [← eq_parseSections hdata, hslam] at hempty
  exact encodeUtf8_ne_nil (status_ne_nil _) hempty

theorem services_not_shown_active :
    ∃ services, checkServices none (answered fun _ => "active".toList) = .ok services ∧
      ¬ ServicesShown (fun _ => "active".toList)
        (SharedState.initial.updateServices "2026-05-01T00:00:00+00:00" services) :=
  services_not_shown rfl .initial _ _

/-- With all units active the fields of the SLAM node and of the health monitor are blank. -/
theorem active_services_blank :
    ∃ services data, checkServices none (answered fun _ => "active\n".toList) = .ok services ∧
      parseKioskJson (payload (SharedState.initial.updateServices "" services)) = some data ∧
      data.svcSlamNode ≠ encodeUtf8 "active".toList ∧
      data.svcHealthMonitor ≠ encodeUtf8 "active".toList := by
  obtain ⟨services, hservices⟩ :=
    @checkServices_ok none (answered fun _ => "active\n".toList) fun unit _ => by simp [answered]
  have hreach := Reachable.initial.updateServices hservices ""
  have hfin := SharedState.finite_initial.updateServices "" services
  obtain ⟨hslam, -, hhealth, -⟩ := parseSections_default rfl hreach
  refine ⟨services, _, hservices, (parse_payload _).1 hfin, ?_, ?_⟩
  · rw [hslam]
    decide
  · rw [hhealth]
    decide

end MowerRover.Kiosk
