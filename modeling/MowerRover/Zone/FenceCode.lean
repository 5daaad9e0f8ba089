import MowerRover.Blocks
import MowerRover.Zone.MissionItems

/-!
# Reading the items of a zone back

The first vertex of a fence polygon carries the number of its vertices and no
other vertex carries any, so that the polygons of a fence can be told apart in
one list of items. A mission has its waypoints after the commands, in order.
-/

namespace MowerRover.Zone

open Numeric Mavlink

/-- The coordinates of the points, and no list where one of them has none. -/
def encodePoints (points : List LatLon) : Except PyError (List (ℤ × ℤ)) :=
  points.mapM latlngToInt32

structure FencePolygon where
  command : ℕ
  vertices : List (ℤ × ℤ)
  deriving DecidableEq

/-- The polygons a zone is fenced by: its boundary, and then its exclusion zones. -/
def ZoneConfig.fencePolygons (zone : ZoneConfig) : Except PyError (List FencePolygon) := do
  let boundary ← encodePoints zone.boundary
  let exclusions ← zone.exclusionZones.mapM fun exclusion => encodePoints exclusion.polygon
  pure (⟨mavCmdNavFencePolygonVertexInclusion, boundary⟩ ::
    exclusions.map (FencePolygon.mk mavCmdNavFencePolygonVertexExclusion))

/-- A number of vertices; zero where it is no whole number. -/
def countOfParam : PyFloat → ℕ
  | .fin q => if q.den = 1 then q.num.toNat else 0
  | _ => 0

/-- A positive first parameter announces a polygon. -/
def announced (item : MissionItem) : Option ℕ :=
  if PyFloat.lt (.fin 0) item.param1 then some (countOfParam item.param1) else none

def position (item : MissionItem) : ℤ × ℤ := (item.x, item.y)

/-- The vertices of a polygon are all of the same command. -/
def decodePolygon : List MissionItem → Option FencePolygon
  | [] => none
  | first :: rest =>
    if ∀ item ∈ rest, item.command = first.command then
      some ⟨first.command, (first :: rest).map position⟩
    else none

/-- A polygon starts at each item that announces one and goes on for as many items. -/
def decodeFence (items : List MissionItem) : Option (List FencePolygon) :=
  (blocks announced items).bind fun polygons => polygons.mapM decodePolygon

/-- The items are those of one polygon. -/
def Reads (items : List MissionItem) (polygon : FencePolygon) : Prop :=
  IsBlock announced items ∧ decodePolygon items = some polygon

/-- The items of a polygon whose vertices have these coordinates, from position `i` on. -/
def pointItems (command vertexCount : ℕ) : ℕ → ℕ → List (ℤ × ℤ) → List MissionItem
  | _, _, [] => []
  | seq, i, point :: points =>
    { seq := seq, frame := mavFrameGlobalInt, command := command
      param1 := .fin (if i = 0 then vertexCount else 0)
      x := point.1, y := point.2, missionType := 1 } ::
        pointItems command vertexCount (seq + 1) (i + 1) points

def FencePolygon.items (polygon : FencePolygon) (seq : ℕ) : List MissionItem :=
  pointItems polygon.command polygon.vertices.length seq 0 polygon.vertices

def fenceItems : ℕ → List FencePolygon → List MissionItem
  | _, [] => []
  | seq, polygon :: polygons =>
    polygon.items seq ++ fenceItems (seq + polygon.vertices.length) polygons

theorem vertexItems_eq (command vertexCount seq i : ℕ) (vertices : List LatLon) :
    vertexItems command vertexCount seq i vertices =
      pointItems command vertexCount seq i <$> encodePoints vertices := by
  unfold encodePoints
  induction vertices generalizing seq i with
  | nil => rfl
  | cons vertex vertices ih =>
    rw [vertexItems, List.mapM_cons, ih]
    cases latlngToInt32 vertex with
    | error x => rfl
    | ok point => cases vertices.mapM latlngToInt32 <;> rfl

theorem encodePoints_length {points : List LatLon} {coords : List (ℤ × ℤ)}
    (h : encodePoints points = .ok coords) : coords.length = points.length := by
  unfold encodePoints at h
  induction points generalizing coords with
  | nil =>
    obtain rfl : [] = coords := by simpa using h
    rfl
  | cons point points ih =>
    simp only [List.mapM_cons, bind_eq_ok] at h
    obtain ⟨c, -, rest, hrest, h⟩ := h
    obtain rfl := Except.ok.inj h
    rw [List.length_cons, List.length_cons, ih hrest]

theorem vertexItems_eq_items (command seq : ℕ) (vertices : List LatLon) :
    vertexItems command vertices.length seq 0 vertices =
      (fun coords => (FencePolygon.mk command coords).items seq) <$> encodePoints vertices := by
  rw [vertexItems_eq]
  cases h : encodePoints vertices with
  | error x => rfl
  | ok coords =>
    rw [← encodePoints_length h]
    rfl

theorem exclusionItems_eq (seq : ℕ) (exclusions : List ExclusionZone) :
    exclusionItems seq exclusions =
      (fun all => fenceItems seq (all.map
        (FencePolygon.mk mavCmdNavFencePolygonVertexExclusion))) <$>
        exclusions.mapM fun exclusion => encodePoints exclusion.polygon := by
  induction exclusions generalizing seq with
  | nil => rfl
  | cons exclusion exclusions ih =>
    rw [exclusionItems, List.mapM_cons, vertexItems_eq_items, ih]
    cases h : encodePoints exclusion.polygon with
    | error x => rfl
    | ok coords =>
      rw [← encodePoints_length h]
      cases exclusions.mapM fun exclusion => encodePoints exclusion.polygon <;> rfl

theorem zoneToFence_eq (zone : ZoneConfig) :
    zoneToFence zone = fenceItems 0 <$> zone.fencePolygons := by
  rw [zoneToFence, ZoneConfig.fencePolygons, vertexItems_eq_items, exclusionItems_eq]
  cases h : encodePoints zone.boundary with
  | error x => rfl
  | ok coords =>
    rw [← encodePoints_length h]
    cases zone.exclusionZones.mapM fun exclusion => encodePoints exclusion.polygon with
    | error x => rfl
    | ok all =>
      show Except.ok _ = Except.ok _
      rw [fenceItems, Nat.zero_add]

theorem mapM_encodePoints_length {exclusions : List ExclusionZone} {all : List (List (ℤ × ℤ))}
    (h : (exclusions.mapM fun exclusion => encodePoints exclusion.polygon) = .ok all) :
    all.map List.length = exclusions.map fun exclusion => exclusion.polygon.length := by
  induction exclusions generalizing all with
  | nil =>
    obtain rfl : [] = all := by simpa using h
    rfl
  | cons exclusion exclusions ih =>
    simp only [List.mapM_cons, bind_eq_ok] at h
    obtain ⟨coords, hcoords, rest, hrest, h⟩ := h
    obtain rfl := Except.ok.inj h
    rw [List.map_cons, List.map_cons, encodePoints_length hcoords, ih hrest]

theorem fencePolygons_vertices {zone : ZoneConfig} {polygons : List FencePolygon}
    (h : zone.fencePolygons = .ok polygons) (hboundary : 3 ≤ zone.boundary.length)
    (hexclusions : ∀ exclusion ∈ zone.exclusionZones, 3 ≤ exclusion.polygon.length) :
    ∀ polygon ∈ polygons, 3 ≤ polygon.vertices.length := by
  simp only [ZoneConfig.fencePolygons, bind_eq_ok] at h
  obtain ⟨boundary, hb, all, hall, h⟩ := h
  obtain rfl := Except.ok.inj h
  rw [List.forall_mem_cons, List.forall_mem_map]
  constructor
  · rw [encodePoints_length hb]
    exact hboundary
  · intro coords hcoords
    have hmem := List.mem_map_of_mem (f := List.length) hcoords
    rw [mapM_encodePoints_length hall] at hmem
    obtain ⟨exclusion, hexclusion, hlen⟩ := List.mem_map.mp hmem
    exact hlen ▸ hexclusions exclusion hexclusion

theorem announced_intCount (item : MissionItem) {n : ℕ} (h : item.param1 = .fin n) :
    announced item = if n = 0 then none else some n := by
  unfold announced
  rw [h]
  by_cases hn : n = 0
  · subst hn
    simp [PyFloat.lt]
  · have hpos : (0 : ℚ) < n := by exact_mod_cast Nat.pos_of_ne_zero hn
    simp [PyFloat.lt, countOfParam, hn, hpos]

theorem pointItems_mem {command vertexCount seq i : ℕ} {points : List (ℤ × ℤ)} {item : MissionItem}
    (h : item ∈ pointItems command vertexCount seq i points) :
    item.command = command ∧ (i ≠ 0 → announced item = none) := by
  induction points generalizing seq i with
  | nil => simp [pointItems] at h
  | cons point points ih =>
    rw [pointItems, List.mem_cons] at h
    rcases h with rfl | h
    · refine ⟨rfl, fun hi => ?_⟩
      rw [announced_intCount (n := 0) _ (by simp [hi])]
      rfl
    · exact ⟨(ih h).1, fun _ => (ih h).2 (by omega)⟩

theorem pointItems_positions (command vertexCount seq i : ℕ) (points : List (ℤ × ℤ)) :
    (pointItems command vertexCount seq i points).map position = points := by
  induction points generalizing seq i with
  | nil => rfl
  | cons point points ih =>
    rw [pointItems, List.map_cons, ih]
    rfl

theorem FencePolygon.items_isBlock {polygon : FencePolygon} (hne : polygon.vertices ≠ [])
    (seq : ℕ) :
    IsBlock announced (polygon.items seq) := by
  obtain ⟨command, vertices⟩ := polygon
  cases vertices with
  | nil => exact absurd rfl hne
  | cons point points =>
    dsimp only [items]
    rw [pointItems]
    apply IsBlock.mk
    · have hlen := congrArg List.length
        (pointItems_positions command (points.length + 1) (seq + 1) 1 points)
      rw [List.length_map] at hlen
      rw [List.length_cons, Nat.zero_add, hlen, announced_intCount (n := points.length + 1) _ rfl]
      rfl
    · intro item hitem
      exact (pointItems_mem hitem).2 (Nat.succ_ne_zero 0)

theorem FencePolygon.decode_items {polygon : FencePolygon} (hne : polygon.vertices ≠ []) (seq : ℕ) :
    decodePolygon (polygon.items seq) = some polygon := by
  obtain ⟨command, vertices⟩ := polygon
  have hpositions := pointItems_positions command vertices.length seq 0 vertices
  have hcommand : ∀ item ∈ pointItems command vertices.length seq 0 vertices,
      item.command = command := fun item hitem => (pointItems_mem hitem).1
  cases vertices with
  | nil => exact absurd rfl hne
  | cons point points =>
    dsimp only [items]
    rw [pointItems] at hpositions hcommand ⊢
    rw [decodePolygon, hpositions]
    apply if_pos
    intro item hitem
    exact hcommand item (List.mem_cons_of_mem _ hitem)

theorem fenceItems_eq_flatten (seq : ℕ) (polygons : List FencePolygon) :
    ∃ parts : List (List MissionItem), fenceItems seq polygons = parts.flatten ∧
      List.Forall₂ Reads parts (polygons.filter (·.vertices ≠ [])) := by
  induction polygons generalizing seq with
  | nil => exact ⟨[], rfl, .nil⟩
  | cons polygon polygons ih =>
    obtain ⟨parts, hparts, hdecode⟩ := ih (seq + polygon.vertices.length)
    rw [fenceItems, hparts]
    by_cases hne : polygon.vertices = []
    · refine ⟨parts, ?_, ?_⟩
      · rw [FencePolygon.items, hne]
        rfl
      · rw [List.filter_cons_of_neg (by simp [hne])]
        exact hdecode
    · refine ⟨polygon.items seq :: parts, rfl, ?_⟩
      rw [List.filter_cons_of_pos (by simp [hne])]
      exact .cons ⟨FencePolygon.items_isBlock hne seq, FencePolygon.decode_items hne seq⟩ hdecode

theorem decodeFence_eq_some_iff {items : List MissionItem} {polygons : List FencePolygon} :
    decodeFence items = some polygons ↔
      ∃ parts : List (List MissionItem), items = parts.flatten ∧
        List.Forall₂ Reads parts polygons := by
  have hforall : ∀ parts, List.Forall₂ Reads parts polygons ↔
      (∀ part ∈ parts, IsBlock announced part) ∧ parts.mapM decodePolygon = some polygons := by
    intro parts
    rw [mapM_eq_some_iff]
    exact List.forall₂_and_left parts polygons
  rw [decodeFence, Option.bind_eq_some_iff]
  constructor
  · rintro ⟨parts, hparts, hmap⟩
    obtain ⟨hflatten, hblocks⟩ := blocks_eq_some_iff.mp hparts
    exact ⟨parts, hflatten, (hforall parts).mpr ⟨hblocks, hmap⟩⟩
  · rintro ⟨parts, hflatten, hreads⟩
    obtain ⟨hblocks, hmap⟩ := (hforall parts).mp hreads
    exact ⟨parts, blocks_eq_some_iff.mpr ⟨hflatten, hblocks⟩, hmap⟩

theorem decodeFence_fenceItems (seq : ℕ) (polygons : List FencePolygon) :
    decodeFence (fenceItems seq polygons) = some (polygons.filter (·.vertices ≠ [])) := by
  exact decodeFence_eq_some_iff.mpr (fenceItems_eq_flatten seq polygons)

theorem encodePoints_mem {points : List LatLon} {coords : List (ℤ × ℤ)}
    (h : encodePoints points = .ok coords) :
    ∀ c ∈ coords, ∃ point ∈ points, latlngToInt32 point = .ok c := by
  unfold encodePoints at h
  induction points generalizing coords with
  | nil =>
    obtain rfl : [] = coords := by simpa using h
    simp
  | cons point points ih =>
    simp only [List.mapM_cons, bind_eq_ok] at h
    obtain ⟨c, hc, rest, hrest, h⟩ := h
    obtain rfl := Except.ok.inj h
    rw [List.forall_mem_cons]
    refine ⟨⟨point, List.mem_cons_self, hc⟩, fun d hd => ?_⟩
    obtain ⟨p, hp, hpd⟩ := ih hrest d hd
    exact ⟨p, List.mem_cons_of_mem _ hp, hpd⟩

theorem vertexItems_encoded {command vertexCount seq i : ℕ} {vertices : List LatLon}
    {items : List MissionItem} (h : vertexItems command vertexCount seq i vertices = .ok items) :
    ∀ item ∈ items, ∃ point, latlngToInt32 point = .ok (position item) := by
  rw [vertexItems_eq, map_eq_ok] at h
  obtain ⟨coords, hcoords, rfl⟩ := h
  intro item hitem
  have hmem := List.mem_map_of_mem (f := position) hitem
  rw [pointItems_positions] at hmem
  obtain ⟨point, -, hpoint⟩ := encodePoints_mem hcoords _ hmem
  exact ⟨point, hpoint⟩

theorem exclusionItems_encoded {seq : ℕ} {exclusions : List ExclusionZone}
    {items : List MissionItem}
    (h : exclusionItems seq exclusions = .ok items) :
    ∀ item ∈ items, ∃ point, latlngToInt32 point = .ok (position item) := by
  induction exclusions generalizing seq items with
  | nil =>
    obtain rfl : [] = items := by simpa [exclusionItems] using h
    simp
  | cons exclusion exclusions ih =>
    simp only [exclusionItems, bind_eq_ok] at h
    obtain ⟨polygon, hpolygon, rest, hrest, h⟩ := h
    obtain rfl := Except.ok.inj h
    rw [List.forall_mem_append]
    exact ⟨vertexItems_encoded hpolygon, ih hrest⟩

theorem zoneToFence_encoded {zone : ZoneConfig} {items : List MissionItem}
    (h : zoneToFence zone = .ok items) :
    ∀ item ∈ items, ∃ point, latlngToInt32 point = .ok (position item) := by
  simp only [zoneToFence, bind_eq_ok] at h
  obtain ⟨boundary, hboundary, exclusions, hexclusions, h⟩ := h
  obtain rfl := Except.ok.inj h
  rw [List.forall_mem_append]
  exact ⟨vertexItems_encoded hboundary, exclusionItems_encoded hexclusions⟩

theorem decodeFence_zoneToFence {zone : ZoneConfig} {items : List MissionItem}
    (h : zoneToFence zone = .ok items) : ∃ polygons, decodeFence items = some polygons := by
  rw [zoneToFence_eq, map_eq_ok] at h
  obtain ⟨polygons, -, rfl⟩ := h
  exact ⟨_, decodeFence_fenceItems 0 polygons⟩

/-- The items of waypoints with these coordinates. -/
def waypointRows : ℕ → List (ℤ × ℤ) → List MissionItem
  | _, [] => []
  | seq, point :: points =>
    { seq := seq, frame := mavFrameGlobalInt, command := mavCmdNavWaypoint
      param2 := .fin 2, x := point.1, y := point.2 } :: waypointRows (seq + 1) points

theorem waypointItems_eq (seq : ℕ) (waypoints : List LatLon) :
    waypointItems seq waypoints = waypointRows seq <$> encodePoints waypoints := by
  unfold encodePoints
  induction waypoints generalizing seq with
  | nil => rfl
  | cons waypoint waypoints ih =>
    rw [waypointItems, List.mapM_cons, ih]
    cases latlngToInt32 waypoint with
    | error x => rfl
    | ok point => cases waypoints.mapM latlngToInt32 <;> rfl

theorem zoneToMission_eq_ok {zone : ZoneConfig} {waypoints : List LatLon}
    {items : List MissionItem} :
    zoneToMission zone waypoints = .ok items ↔ ∃ home points, latlngToInt32 zone.home = .ok home ∧
      encodePoints waypoints = .ok points ∧
        items = missionHead zone home ++ waypointRows (missionHead zone home).length points := by
  simp only [zoneToMission, waypointItems_eq, bind_eq_ok, map_eq_ok, pure_eq_ok, Except.ok.injEq]
  constructor
  · rintro ⟨home, hhome, rows, ⟨points, hpoints, rfl⟩, rfl⟩
    exact ⟨home, points, hhome, hpoints, rfl⟩
  · rintro ⟨home, points, hhome, hpoints, rfl⟩
    exact ⟨home, hhome, _, ⟨points, hpoints, rfl⟩, rfl⟩

theorem waypointRows_mem {seq : ℕ} {points : List (ℤ × ℤ)} {item : MissionItem}
    (h : item ∈ waypointRows seq points) : item.command = mavCmdNavWaypoint ∧ item.current = 0 := by
  induction points generalizing seq with
  | nil => simp [waypointRows] at h
  | cons point points ih =>
    rw [waypointRows, List.mem_cons] at h
    rcases h with rfl | h
    · exact ⟨rfl, rfl⟩
    · exact ih h

theorem waypointRows_positions (seq : ℕ) (points : List (ℤ × ℤ)) :
    (waypointRows seq points).map position = points := by
  induction points generalizing seq with
  | nil => rfl
  | cons point points ih =>
    rw [waypointRows, List.map_cons, ih]
    rfl

/-- After home the head holds commands, none of them a waypoint and none current. -/
theorem missionHead_eq_cons (zone : ZoneConfig) (home : ℤ × ℤ) : ∃ first commands,
    missionHead zone home = first :: commands ∧
      (first.command = mavCmdNavWaypoint ∧ first.current = 1 ∧ position first = home) ∧
        ∀ item ∈ commands, item.command ≠ mavCmdNavWaypoint ∧ item.current = 0 := by
  have hspeed : mavCmdDoChangeSpeed ≠ mavCmdNavWaypoint := by decide
  have hresume : mavCmdDoSetResumeRepeatDist ≠ mavCmdNavWaypoint := by decide
  have hfence : mavCmdDoFenceEnable ≠ mavCmdNavWaypoint := by decide
  refine ⟨_, [_, _] ++ _, rfl, ⟨rfl, rfl, rfl⟩, ?_⟩
  intro item hitem
  simp only [List.mem_append, List.mem_cons, List.not_mem_nil, or_false] at hitem
  rcases hitem with (rfl | rfl) | hitem
  · exact ⟨hspeed, rfl⟩
  · exact ⟨hresume, rfl⟩
  · split_ifs at hitem
    · obtain rfl := List.mem_singleton.mp hitem
      exact ⟨hfence, rfl⟩
    · simp at hitem

/-- What a mission is decoded to: where it starts, and its waypoints in order. -/
structure DecodesTo (items : List MissionItem) (home : ℤ × ℤ) (points : List (ℤ × ℤ)) : Prop where
  current : items.countP (·.current = 1) = 1
  first : ∃ first rest, items = first :: rest ∧ first.current = 1 ∧
    first.command = mavCmdNavWaypoint ∧ position first = home
  waypoints : (items.tail.filter (·.command = mavCmdNavWaypoint)).map position = points

theorem missionHead_decodesTo (zone : ZoneConfig) (home : ℤ × ℤ) (seq : ℕ) (points : List (ℤ × ℤ)) :
    DecodesTo (missionHead zone home ++ waypointRows seq points) home points := by
  obtain ⟨first, commands, hhead, ⟨hcommand, hcurrent, hposition⟩, hcommands⟩ :=
    missionHead_eq_cons zone home
  rw [hhead, List.cons_append]
  refine ⟨?_, ⟨first, _, rfl, hcurrent, hcommand, hposition⟩, ?_⟩
  · rw [List.countP_cons_of_pos (by simpa using hcurrent), Nat.add_eq_right, List.countP_eq_zero]
    intro item hitem
    have hzero : item.current = 0 := by
      rcases List.mem_append.mp hitem with h | h
      · exact (hcommands item h).2
      · exact (waypointRows_mem h).2
    simp [hzero]
  · have hnone : commands.filter (·.command = mavCmdNavWaypoint) = [] := by
      rw [List.filter_eq_nil_iff]
      intro item hitem
      simpa using (hcommands item hitem).1
    have hall : (waypointRows seq points).filter (·.command = mavCmdNavWaypoint) =
        waypointRows seq points := by
      rw [List.filter_eq_self]
      intro item hitem
      simpa using (waypointRows_mem hitem).1
    rw [List.tail_cons, List.filter_append, hnone, hall, List.nil_append, waypointRows_positions]

/-- The fence of a zone is decoded to its boundary and its exclusion zones, and its mission to
home and the waypoints; both are numbered from zero. They are there when every point has
coordinates. -/
theorem missionEncodings_faithful (zone : ZoneConfig) (hboundary : 3 ≤ zone.boundary.length)
    (hexclusions : ∀ exclusion ∈ zone.exclusionZones, 3 ≤ exclusion.polygon.length) :
    (decodeFence <$> zoneToFence zone = some <$> zone.fencePolygons ∧
      ∀ items, zoneToFence zone = .ok items → Numbered items 1) ∧
    ∀ waypoints : List LatLon,
      (∀ home points, latlngToInt32 zone.home = .ok home → encodePoints waypoints = .ok points →
        ∃ items, zoneToMission zone waypoints = .ok items) ∧
      ∀ items, zoneToMission zone waypoints = .ok items → Numbered items 0 ∧
        ∃ home points, latlngToInt32 zone.home = .ok home ∧
          encodePoints waypoints = .ok points ∧ DecodesTo items home points := by
  refine ⟨⟨?_, fun items h => (zoneToFence_numbered h).1⟩, fun waypoints => ⟨?_, ?_⟩⟩
  · rw [zoneToFence_eq]
    cases hpolygons : zone.fencePolygons with
    | error x => rfl
    | ok polygons =>
      have hall := fencePolygons_vertices hpolygons hboundary hexclusions
      show Except.ok (decodeFence (fenceItems 0 polygons)) = Except.ok (some polygons)
      rw [decodeFence_fenceItems, List.filter_eq_self.mpr]
      intro polygon hpolygon
      have hlen := hall polygon hpolygon
      rw [decide_eq_true_iff]
      intro hnil
      rw [hnil] at hlen
      simp at hlen
  · intro home points hhome hpoints
    exact ⟨_, zoneToMission_eq_ok.mpr ⟨home, points, hhome, hpoints, rfl⟩⟩
  · intro items h
    refine ⟨(zoneToMission_numbered h).1, ?_⟩
    obtain ⟨home, points, hhome, hpoints, rfl⟩ := zoneToMission_eq_ok.mp h
    exact ⟨home, points, hhome, hpoints, missionHead_decodesTo zone home _ points⟩

/-- A lawn of three corners with a bed of three corners. -/
def bedZone : ZoneConfig where
  schema := "mower-rover.zone.v1"
  zoneId := "ne"
  home := ⟨.fin 0, .fin 0⟩
  rallyPoint := ⟨.fin 0, .fin 1⟩
  boundary := [⟨.fin 0, .fin 0⟩, ⟨.fin 0, .fin 3⟩, ⟨.fin (-3), .fin 0⟩]
  exclusionZones := [⟨.fin 1, [⟨.fin (-1), .fin 1⟩, ⟨.fin (-1), .fin 2⟩, ⟨.fin (-2), .fin 1⟩]⟩]

theorem missionEncodings_faithful_bed :
    decodeFence <$> zoneToFence bedZone = .ok (some
      [⟨5001, [(0, 0), (0, 30000000), (-30000000, 0)]⟩,
        ⟨5002, [(-10000000, 10000000), (-10000000, 20000000), (-20000000, 10000000)]⟩]) ∧
    ∃ items, zoneToMission bedZone [⟨.fin 0, .fin 1⟩, ⟨.fin (-1), .fin 0⟩] = .ok items ∧
      DecodesTo items (0, 0) [(0, 10000000), (-10000000, 0)] := by
  obtain ⟨⟨hfence, -⟩, hmission⟩ := missionEncodings_faithful bedZone (by decide) (by decide)
  obtain ⟨hthere, hdecode⟩ := hmission [⟨.fin 0, .fin 1⟩, ⟨.fin (-1), .fin 0⟩]
  have hhome : latlngToInt32 bedZone.home = .ok (0, 0) := by decide +kernel
  have hpoints : encodePoints [⟨.fin 0, .fin 1⟩, ⟨.fin (-1), .fin 0⟩] =
      .ok [(0, 10000000), (-10000000, 0)] := by decide +kernel
  constructor
  · rw [hfence]
    decide +kernel
  · obtain ⟨items, hitems⟩ := hthere _ _ hhome hpoints
    obtain ⟨-, home, points, hhome', hpoints', hdecodes⟩ := hdecode items hitems
    obtain rfl := Except.ok.inj (hhome.symm.trans hhome')
    obtain rfl := Except.ok.inj (hpoints.symm.trans hpoints')
    exact ⟨items, hitems, hdecodes⟩

end MowerRover.Zone
