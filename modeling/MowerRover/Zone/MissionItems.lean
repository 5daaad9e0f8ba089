import MowerRover.Mavlink.RoundTrip
import MowerRover.Zone.Config

/-!
# From a zone to mission items

The conversion of a zone and its planned waypoints to the mission, the fence
and the rally points. Coordinates become integers of `1e-7` degrees, which
fails on coordinates that are not finite. The items of each list are numbered
from zero and carry its mission type.
-/

namespace MowerRover.Zone

open Numeric Mavlink

def mavFrameGlobalInt : ℕ := 5
def mavCmdNavWaypoint : ℕ := 16
def mavCmdDoChangeSpeed : ℕ := 178
def mavCmdDoSetResumeRepeatDist : ℕ := 215
def mavCmdDoFenceEnable : ℕ := 207
def mavCmdNavFencePolygonVertexInclusion : ℕ := 5001
def mavCmdNavFencePolygonVertexExclusion : ℕ := 5002
def mavCmdNavRallyPoint : ℕ := 5100

/-- `int(lat * 1e7), int(lon * 1e7)`. -/
def latlngToInt32 (point : LatLon) : Except PyError (ℤ × ℤ) := do
  pure (← truncate (point.lat.mul (.fin 10000000)), ← truncate (point.lon.mul (.fin 10000000)))

/-- Home, speed, resume distance, and the fence switch where it is wanted. -/
def missionHead (zone : ZoneConfig) (home : ℤ × ℤ) : List MissionItem :=
  [{ seq := 0, frame := mavFrameGlobalInt, command := mavCmdNavWaypoint
     x := home.1, y := home.2, current := 1 },
   { seq := 1, frame := mavFrameGlobalInt, command := mavCmdDoChangeSpeed
     param1 := .fin 1, param2 := zone.coverage.mowSpeedMps },
   { seq := 2, frame := mavFrameGlobalInt, command := mavCmdDoSetResumeRepeatDist
     param1 := zone.commands.resumeDistM }] ++
  if zone.commands.fenceEnable then
    [{ seq := 3, frame := mavFrameGlobalInt, command := mavCmdDoFenceEnable, param1 := .fin 1 }]
  else []

def waypointItems : ℕ → List LatLon → Except PyError (List MissionItem)
  | _, [] => pure []
  | seq, waypoint :: waypoints => do
    let (x, y) ← latlngToInt32 waypoint
    let items ← waypointItems (seq + 1) waypoints
    pure ({ seq := seq, frame := mavFrameGlobalInt, command := mavCmdNavWaypoint
            param2 := .fin 2, x := x, y := y } :: items)

def zoneToMission (zone : ZoneConfig) (waypoints : List LatLon) :
    Except PyError (List MissionItem) := do
  let home ← latlngToInt32 zone.home
  let head := missionHead zone home
  let items ← waypointItems head.length waypoints
  pure (head ++ items)

/-- The vertices of one polygon from position `i` on; the first carries their number. -/
def vertexItems (command vertexCount : ℕ) : ℕ → ℕ → List LatLon → Except PyError (List MissionItem)
  | _, _, [] => pure []
  | seq, i, vertex :: vertices => do
    let (x, y) ← latlngToInt32 vertex
    let items ← vertexItems command vertexCount (seq + 1) (i + 1) vertices
    pure ({ seq := seq, frame := mavFrameGlobalInt, command := command
            param1 := .fin (if i = 0 then vertexCount else 0)
            x := x, y := y, missionType := 1 } :: items)

def exclusionItems : ℕ → List ExclusionZone → Except PyError (List MissionItem)
  | _, [] => pure []
  | seq, exclusion :: exclusions => do
    let items ← vertexItems mavCmdNavFencePolygonVertexExclusion exclusion.polygon.length seq 0
      exclusion.polygon
    let others ← exclusionItems (seq + exclusion.polygon.length) exclusions
    pure (items ++ others)

def zoneToFence (zone : ZoneConfig) : Except PyError (List MissionItem) := do
  let boundary ← vertexItems mavCmdNavFencePolygonVertexInclusion zone.boundary.length 0 0
    zone.boundary
  let exclusions ← exclusionItems zone.boundary.length zone.exclusionZones
  pure (boundary ++ exclusions)

def zoneToRally (zone : ZoneConfig) : Except PyError (List MissionItem) := do
  let (x, y) ← latlngToInt32 zone.rallyPoint
  pure [{ seq := 0, frame := mavFrameGlobalInt, command := mavCmdNavRallyPoint
          x := x, y := y, missionType := 2 }]

/-- Items of one mission type, numbered from `k` on. -/
def NumberedFrom (k t : ℕ) (items : List MissionItem) : Prop :=
  ∀ i (hi : i < items.length), items[i].seq = k + i ∧ items[i].missionType = t

theorem numberedFrom_nil (k t : ℕ) : NumberedFrom k t [] := by simp [NumberedFrom]

theorem NumberedFrom.cons {k t : ℕ} {item : MissionItem} {items : List MissionItem}
    (hseq : item.seq = k) (ht : item.missionType = t) (hi : NumberedFrom (k + 1) t items) :
    NumberedFrom k t (item :: items) := by
  rintro (_ | i) h
  · exact ⟨by simpa using hseq, by simpa using ht⟩
  · obtain ⟨h1, h2⟩ := hi i (by simpa using h)
    exact ⟨by simpa [Nat.add_assoc, Nat.add_comm 1] using h1, by simpa using h2⟩

theorem NumberedFrom.append {k t : ℕ} {a b : List MissionItem} (ha : NumberedFrom k t a)
    (hb : NumberedFrom (k + a.length) t b) : NumberedFrom k t (a ++ b) := by
  intro i hi
  by_cases hia : i < a.length
  · simpa [List.getElem_append_left hia] using ha i hia
  · obtain ⟨h1, h2⟩ := hb (i - a.length) (by simp at hi; omega)
    rw [List.getElem_append_right (by omega)]
    exact ⟨by omega, h2⟩

theorem NumberedFrom.numbered {t : ℕ} {items : List MissionItem} (h : NumberedFrom 0 t items) :
    Numbered items t := fun i hi => by simpa using h i hi

theorem waypointItems_numbered {seq : ℕ} {waypoints : List LatLon} {items : List MissionItem}
    (h : waypointItems seq waypoints = .ok items) : NumberedFrom seq 0 items := by
  induction waypoints generalizing seq items with
  | nil =>
    obtain rfl : [] = items := by simpa [waypointItems] using h
    exact numberedFrom_nil seq 0
  | cons waypoint waypoints ih =>
    simp only [waypointItems, bind_eq_ok] at h
    obtain ⟨⟨x, y⟩, -, rest, hrest, h⟩ := h
    obtain rfl := Except.ok.inj h
    exact .cons rfl rfl (ih hrest)

theorem missionHead_numbered (zone : ZoneConfig) (home : ℤ × ℤ) :
    NumberedFrom 0 0 (missionHead zone home) := by
  refine NumberedFrom.append (.cons rfl rfl
    (.cons rfl rfl (.cons rfl rfl (numberedFrom_nil _ _)))) ?_
  split_ifs
  · exact .cons rfl rfl (numberedFrom_nil _ _)
  · exact numberedFrom_nil _ _

theorem zoneToMission_numbered {zone : ZoneConfig} {waypoints : List LatLon}
    {items : List MissionItem} (h : zoneToMission zone waypoints = .ok items) :
    Numbered items 0 ∧ items ≠ [] := by
  simp only [zoneToMission, bind_eq_ok] at h
  obtain ⟨home, -, rest, hrest, h⟩ := h
  obtain rfl := Except.ok.inj h
  refine ⟨NumberedFrom.numbered ((missionHead_numbered zone home).append ?_), ?_⟩
  · simpa using waypointItems_numbered hrest
  · simp [missionHead]

theorem vertexItems_numbered {command vertexCount seq i : ℕ} {vertices : List LatLon}
    {items : List MissionItem} (h : vertexItems command vertexCount seq i vertices = .ok items) :
    NumberedFrom seq 1 items ∧ items.length = vertices.length := by
  induction vertices generalizing seq i items with
  | nil =>
    obtain rfl : [] = items := by simpa [vertexItems] using h
    exact ⟨numberedFrom_nil seq 1, rfl⟩
  | cons vertex vertices ih =>
    simp only [vertexItems, bind_eq_ok] at h
    obtain ⟨⟨x, y⟩, -, rest, hrest, h⟩ := h
    obtain rfl := Except.ok.inj h
    exact ⟨.cons rfl rfl (ih hrest).1, by simp [(ih hrest).2]⟩

theorem exclusionItems_numbered {seq : ℕ} {exclusions : List ExclusionZone}
    {items : List MissionItem} (h : exclusionItems seq exclusions = .ok items) :
    NumberedFrom seq 1 items := by
  induction exclusions generalizing seq items with
  | nil =>
    obtain rfl : [] = items := by simpa [exclusionItems] using h
    exact numberedFrom_nil seq 1
  | cons exclusion exclusions ih =>
    simp only [exclusionItems, bind_eq_ok] at h
    obtain ⟨polygon, hpolygon, rest, hrest, h⟩ := h
    obtain rfl := Except.ok.inj h
    obtain ⟨hn, hlen⟩ := vertexItems_numbered hpolygon
    exact hn.append (hlen ▸ ih hrest)

theorem zoneToFence_numbered {zone : ZoneConfig} {items : List MissionItem}
    (h : zoneToFence zone = .ok items) :
    Numbered items 1 ∧ (zone.boundary ≠ [] → items ≠ []) := by
  simp only [zoneToFence, bind_eq_ok] at h
  obtain ⟨boundary, hboundary, exclusions, hexclusions, h⟩ := h
  obtain rfl := Except.ok.inj h
  obtain ⟨hn, hlen⟩ := vertexItems_numbered hboundary
  refine ⟨NumberedFrom.numbered (hn.append ?_), fun hne hnil => hne ?_⟩
  · simpa [hlen] using exclusionItems_numbered hexclusions
  · have hempty : boundary = [] := (List.append_eq_nil_iff.mp hnil).1
    simpa [hempty] using hlen.symm

theorem zoneToRally_numbered {zone : ZoneConfig} {items : List MissionItem}
    (h : zoneToRally zone = .ok items) : Numbered items 2 ∧ items ≠ [] := by
  simp only [zoneToRally, bind_eq_ok] at h
  obtain ⟨⟨x, y⟩, -, h⟩ := h
  obtain rfl := Except.ok.inj h
  exact ⟨NumberedFrom.numbered (.cons rfl rfl (numberedFrom_nil _ _)), by simp⟩

end MowerRover.Zone
