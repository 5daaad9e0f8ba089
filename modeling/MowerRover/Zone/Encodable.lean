import MowerRover.Numeric.Limits
import MowerRover.Zone.MissionItems

/-!
# Which zones can be encoded

Loading a zone converts its coordinates and asks no more of them. Encoding
multiplies them by `1e7` and truncates, so that the coordinates of the file
decide whether that succeeds and where it ends.
-/

namespace MowerRover.Zone

open Numeric Mavlink

/-- The latitude and the longitude of a pair or a mapping. -/
def rawLatlng : Yaml → Option (Yaml × Yaml)
  | .list [lat, lon] => some (lat, lon)
  | .dict entries =>
    match Yaml.lookup "lat" entries, Yaml.lookup "lon" entries with
    | some lat, some lon => some (lat, lon)
    | _, _ => none
  | _ => none

def rawVertices : Yaml → List (Yaml × Yaml)
  | .list raw => raw.filterMap rawLatlng
  | _ => []

def rawPolygon : Yaml → List (Yaml × Yaml)
  | .dict entries => rawVertices (Yaml.getD entries "polygon" .null)
  | _ => []

def rawExclusions : Yaml → List (Yaml × Yaml)
  | .list raw => raw.flatMap rawPolygon
  | _ => []

/-- Home, the rally point, and the vertices of the boundary and of the exclusion zones. -/
def rawPoints : YamlFile → List (Yaml × Yaml)
  | .document (.dict entries) =>
    (rawLatlng (Yaml.getD entries "home" .null)).toList ++
      (rawLatlng (Yaml.getD entries "rally_point" .null)).toList ++
        rawVertices (Yaml.getD entries "boundary" .null) ++
          rawExclusions (Yaml.getD entries "exclusion_zones" (.list []))
  | _ => []

def ZoneConfig.points (zone : ZoneConfig) : List LatLon :=
  [zone.home] ++ [zone.rallyPoint] ++ zone.boundary ++ zone.exclusionZones.flatMap (·.polygon)

/-- The point that a latitude and a longitude are converted to. -/
def Denotes (raw : Yaml × Yaml) (point : LatLon) : Prop :=
  pyFloat raw.1 = .ok point.lat ∧ pyFloat raw.2 = .ok point.lon

theorem coerceLatlng_denotes {raw : Yaml} {name : String} {point : LatLon}
    (h : coerceLatlng raw name = .ok point) : ∃ c, rawLatlng raw = some c ∧ Denotes c point := by
  have hpair : ∀ lat lon : Yaml, (do pure ⟨← pyFloat lat, ← pyFloat lon⟩ : Except PyError LatLon) =
      .ok point → Denotes (lat, lon) point := by
    intro lat lon hboth
    simp only [bind_eq_ok] at hboth
    obtain ⟨x, hx, y, hy, hpoint⟩ := hboth
    obtain rfl := Except.ok.inj hpoint
    exact ⟨hx, hy⟩
  unfold coerceLatlng at h
  split at h
  · exact ⟨_, rfl, hpair _ _ h⟩
  · split at h
    · rename_i hlat hlon
      exact ⟨_, by rw [rawLatlng, hlat, hlon], hpair _ _ h⟩
    · simp [coerceLatlng.refuse] at h
  · simp [coerceLatlng.refuse] at h

theorem coerceRallyPoint_denotes {raw : Yaml} {point : LatLon}
    (h : coerceRallyPoint raw = .ok point) : ∃ c, rawLatlng raw = some c ∧ Denotes c point := by
  unfold coerceRallyPoint at h
  split at h
  · split at h
    · rename_i lat lon hlat hlon
      simp only [bind_eq_ok] at h
      obtain ⟨x, hx, y, hy, hpoint⟩ := h
      obtain rfl := Except.ok.inj hpoint
      exact ⟨(lat, lon), by rw [rawLatlng, hlat, hlon], hx, hy⟩
    · simp at h
  · simp at h

theorem coerceVertices_denotes {field : String} {i : ℕ} {raw : List Yaml} {points : List LatLon}
    (h : coerceVertices field i raw = .ok points) :
    List.Forall₂ Denotes (raw.filterMap rawLatlng) points := by
  induction raw generalizing i points with
  | nil =>
    obtain rfl : [] = points := by simpa [coerceVertices] using h
    exact .nil
  | cons vertex raw ih =>
    simp only [coerceVertices, bind_eq_ok] at h
    obtain ⟨point, hpoint, rest, hrest, h⟩ := h
    obtain rfl := Except.ok.inj h
    have hvertex : coerceLatlng vertex s!"{field}[{i}]" = .ok point := by
      cases hc : coerceLatlng vertex s!"{field}[{i}]" with
      | ok p =>
        rw [hc] at hpoint
        exact hpoint
      | error x =>
        rw [hc] at hpoint
        cases x <;> cases hpoint
    obtain ⟨c, hc, hden⟩ := coerceLatlng_denotes hvertex
    rw [List.filterMap_cons_some hc]
    exact .cons hden (ih hrest)

theorem coerceBoundary_denotes {shapely : Shapely} {raw : Yaml} {points : List LatLon}
    (h : coerceBoundary shapely raw = .ok points) :
    List.Forall₂ Denotes (rawVertices raw) points := by
  cases raw with
  | list raw =>
    by_cases hlen : raw.length < 3
    · simp [coerceBoundary, hlen] at h
    · simp only [coerceBoundary, if_neg hlen, bind_eq_ok] at h
      obtain ⟨points', hpoints, -, -, h⟩ := h
      obtain rfl := Except.ok.inj h
      exact coerceVertices_denotes hpoints
  | _ => simp [coerceBoundary] at h

theorem coerceExclusionZone_denotes {shapely : Shapely} {i : ℕ} {raw : Yaml}
    {exclusion : ExclusionZone} (h : coerceExclusionZone shapely i raw = .ok exclusion) :
    List.Forall₂ Denotes (rawPolygon raw) exclusion.polygon := by
  obtain ⟨entries, vertices, rfl, hvertices, -, hpolygon⟩ := coerceExclusionZone_polygon h
  rw [rawPolygon, Yaml.getD, hvertices]
  exact coerceVertices_denotes hpolygon

theorem coerceExclusionZones_denotes {shapely : Shapely} {raw : Yaml}
    {exclusions : List ExclusionZone} (h : coerceExclusionZones shapely raw = .ok exclusions) :
    List.Forall₂ Denotes (rawExclusions raw) (exclusions.flatMap (·.polygon)) := by
  have hfrom : ∀ (raw : List Yaml) (k : ℕ) (exclusions : List ExclusionZone),
      ((raw.zipIdx k).mapM fun p => coerceExclusionZone shapely p.2 p.1) = .ok exclusions →
        List.Forall₂ Denotes (raw.flatMap rawPolygon) (exclusions.flatMap (·.polygon)) := by
    intro raw
    induction raw with
    | nil =>
      intro k exclusions h
      obtain rfl : [] = exclusions := by simpa using h
      exact .nil
    | cons zone raw ih =>
      intro k exclusions h
      simp only [List.zipIdx_cons, List.mapM_cons, bind_eq_ok] at h
      obtain ⟨exclusion, hzone, rest, hrest, h⟩ := h
      obtain rfl := Except.ok.inj h
      exact List.rel_append (coerceExclusionZone_denotes hzone) (ih (k + 1) rest hrest)
  cases raw with
  | list raw => exact hfrom raw 0 exclusions h
  | _ => simp [coerceExclusionZones] at h

theorem loadZoneConfig_denotes {shapely : Shapely} {path : String} {file : YamlFile}
    {zone : ZoneConfig} (h : loadZoneConfig shapely path file = .ok zone) :
    List.Forall₂ Denotes (rawPoints file) zone.points := by
  obtain ⟨entries, rfl, hcoerced⟩ := coerced_of_load h
  obtain ⟨homeRaw, hhr, hhd⟩ := coerceLatlng_denotes hcoerced.home
  obtain ⟨rallyRaw, hrr, hrd⟩ := coerceRallyPoint_denotes hcoerced.rallyPoint
  dsimp only [rawPoints, ZoneConfig.points]
  rw [hhr, hrr]
  apply List.rel_append
  · apply List.rel_append
    · exact List.rel_append (.cons hhd .nil) (.cons hrd .nil)
    · exact coerceBoundary_denotes hcoerced.boundary
  · exact coerceExclusionZones_denotes hcoerced.exclusionZones

/-- The item's coordinates are a latitude and a longitude. -/
def InRange (item : MissionItem) : Prop := |item.x| ≤ 900000000 ∧ |item.y| ≤ 1800000000

/-- The degrees whose encodings are in range: a product with `1e7` that is closer to the next
whole number than half a unit of its last place rounds up to it. -/
def latInRange (q : ℚ) : Prop := |q * 10000000| < 900000001 - 2 ^ (-24 : ℤ)
def lonInRange (q : ℚ) : Prop := |q * 10000000| < 1800000001 - 2 ^ (-23 : ℤ)

def LatLon.Encodable (point : LatLon) : Prop :=
  (∃ q, point.lat = .fin q ∧ latInRange q) ∧ ∃ q, point.lon = .fin q ∧ lonInRange q

theorem truncate_mul_iff {f : PyFloat} {N e : ℕ} (he : e ≤ 51) (hlo : 2 ^ e < N + 1)
    (hhi : N + 1 < 2 ^ (e + 1)) : (∃ n, truncate (f.mul (.fin 10000000)) = .ok n ∧ |n| ≤ N) ↔
      ∃ q, f = .fin q ∧ |q * 10000000| < ((N + 1 : ℕ) : ℚ) - 2 ^ (e - 53 : ℤ) := by
  cases f with
  | fin q =>
    rw [PyFloat.mul, truncate_ofRat_iff he hlo hhi]
    simp
  | inf s => simp [PyFloat.mul, truncate]
  | nan => simp [PyFloat.mul, truncate]

theorem latlngToInt32_iff {point : LatLon} : (∃ x y, latlngToInt32 point = .ok (x, y) ∧
    |x| ≤ 900000000 ∧ |y| ≤ 1800000000) ↔ point.Encodable := by
  have hlat := truncate_mul_iff (f := point.lat) (N := 900000000) (e := 29) (by norm_num)
    (by norm_num) (by norm_num)
  have hlon := truncate_mul_iff (f := point.lon) (N := 1800000000) (e := 30) (by norm_num)
    (by norm_num) (by norm_num)
  norm_num only at hlat hlon
  rw [LatLon.Encodable]
  simp only [latInRange, lonInRange]
  norm_num only
  rw [← hlat, ← hlon]
  simp only [latlngToInt32, bind_eq_ok, pure_eq_ok, Except.ok.injEq, Prod.mk.injEq]
  constructor
  · rintro ⟨x, y, ⟨x', hx, y', hy, hx', hy'⟩, hxr, hyr⟩
    subst hx' hy'
    exact ⟨⟨x', hx, hxr⟩, y', hy, hyr⟩
  · rintro ⟨⟨x, hx, hxr⟩, y, hy, hyr⟩
    exact ⟨x, y, ⟨x, hx, y, hy, rfl, rfl⟩, hxr, hyr⟩

/-- A list of items that is there and in range. -/
def Encodes (items : Except PyError (List MissionItem)) : Prop :=
  ∃ l, items = .ok l ∧ ∀ item ∈ l, InRange item

theorem encodes_bind_iff {point : LatLon} {item : ℤ × ℤ → MissionItem}
    {rest : Except PyError (List MissionItem)} (hx : ∀ xy, (item xy).x = xy.1)
    (hy : ∀ xy, (item xy).y = xy.2) :
    Encodes (do let xy ← latlngToInt32 point; let items ← rest; pure (item xy :: items)) ↔
      point.Encodable ∧ Encodes rest := by
  rw [← latlngToInt32_iff]
  simp only [Encodes, bind_eq_ok]
  constructor
  · rintro ⟨l, ⟨xy, hxy, items, hitems, hl⟩, hrange⟩
    obtain rfl := Except.ok.inj hl
    rw [List.forall_mem_cons, InRange, hx, hy] at hrange
    exact ⟨⟨xy.1, xy.2, hxy, hrange.1⟩, items, hitems, hrange.2⟩
  · rintro ⟨⟨x, y, hxy, hrange⟩, items, hitems, hall⟩
    refine ⟨_, ⟨(x, y), hxy, items, hitems, rfl⟩, ?_⟩
    rw [List.forall_mem_cons, InRange, hx, hy]
    exact ⟨hrange, hall⟩

theorem vertexItems_encodes_iff (command vertexCount seq i : ℕ) (vertices : List LatLon) :
    Encodes (vertexItems command vertexCount seq i vertices) ↔ ∀ p ∈ vertices, p.Encodable := by
  induction vertices generalizing seq i with
  | nil => simp [vertexItems, Encodes]
  | cons vertex vertices ih =>
    rw [List.forall_mem_cons, ← ih (seq + 1) (i + 1)]
    exact encodes_bind_iff (fun _ => rfl) (fun _ => rfl)

theorem encodes_append_iff {a b : Except PyError (List MissionItem)} :
    Encodes (do let x ← a; let y ← b; pure (x ++ y)) ↔ Encodes a ∧ Encodes b := by
  simp only [Encodes, bind_eq_ok]
  constructor
  · rintro ⟨l, ⟨x, hx, y, hy, hl⟩, hrange⟩
    obtain rfl := Except.ok.inj hl
    rw [List.forall_mem_append] at hrange
    exact ⟨⟨x, hx, hrange.1⟩, y, hy, hrange.2⟩
  · rintro ⟨⟨x, hx, hxr⟩, y, hy, hyr⟩
    exact ⟨x ++ y, ⟨x, hx, y, hy, rfl⟩, List.forall_mem_append.mpr ⟨hxr, hyr⟩⟩

theorem exclusionItems_encodes_iff (seq : ℕ) (exclusions : List ExclusionZone) :
    Encodes (exclusionItems seq exclusions) ↔
      ∀ p ∈ exclusions.flatMap (·.polygon), p.Encodable := by
  induction exclusions generalizing seq with
  | nil => simp [exclusionItems, Encodes]
  | cons exclusion exclusions ih =>
    rw [List.flatMap_cons, List.forall_mem_append, ← ih (seq + exclusion.polygon.length),
      ← vertexItems_encodes_iff mavCmdNavFencePolygonVertexExclusion exclusion.polygon.length seq 0]
    exact encodes_append_iff

theorem zoneToFence_encodes_iff (zone : ZoneConfig) : Encodes (zoneToFence zone) ↔
    (∀ p ∈ zone.boundary, p.Encodable) ∧
      ∀ p ∈ zone.exclusionZones.flatMap (·.polygon), p.Encodable := by
  rw [← exclusionItems_encodes_iff zone.boundary.length,
    ← vertexItems_encodes_iff mavCmdNavFencePolygonVertexInclusion zone.boundary.length 0 0]
  exact encodes_append_iff

theorem zoneToRally_encodes_iff (zone : ZoneConfig) :
    Encodes (zoneToRally zone) ↔ zone.rallyPoint.Encodable := by
  have hnil : Encodes (pure []) := ⟨[], rfl, by simp⟩
  calc Encodes (zoneToRally zone)
      ↔ Encodes (do
          let xy ← latlngToInt32 zone.rallyPoint
          let items ← pure []
          pure ({ seq := 0, frame := mavFrameGlobalInt, command := mavCmdNavRallyPoint
                  x := xy.1, y := xy.2, missionType := 2 } :: items)) := Iff.rfl
    _ ↔ zone.rallyPoint.Encodable ∧ Encodes (pure []) :=
        encodes_bind_iff (fun _ => rfl) (fun _ => rfl)
    _ ↔ zone.rallyPoint.Encodable := and_iff_left hnil

theorem missionHead_inRange_iff (zone : ZoneConfig) (home : ℤ × ℤ) :
    (∀ item ∈ missionHead zone home, InRange item) ↔
      |home.1| ≤ 900000000 ∧ |home.2| ≤ 1800000000 := by
  rw [missionHead, List.forall_mem_append, List.forall_mem_cons, and_assoc]
  apply and_iff_left
  constructor
  · simp [InRange]
  · split_ifs <;> simp [InRange]

theorem zoneToMission_encodes_iff (zone : ZoneConfig) :
    Encodes (zoneToMission zone []) ↔ zone.home.Encodable := by
  rw [← latlngToInt32_iff]
  simp only [Encodes, zoneToMission, waypointItems, bind_eq_ok, pure_eq_ok, Except.ok.injEq,
    exists_eq_left', List.append_nil]
  constructor
  · rintro ⟨l, ⟨home, hhome, rfl⟩, hrange⟩
    exact ⟨home.1, home.2, hhome, (missionHead_inRange_iff zone home).mp hrange⟩
  · rintro ⟨x, y, hhome, hrange⟩
    exact ⟨_, ⟨(x, y), hhome, rfl⟩, (missionHead_inRange_iff zone (x, y)).mpr hrange⟩

/-- The mission with nothing but home, the fence and the rally points of a zone. -/
def ZoneConfig.Encodes (zone : ZoneConfig) : Prop :=
  Zone.Encodes (zoneToMission zone []) ∧ Zone.Encodes (zoneToFence zone) ∧
    Zone.Encodes (zoneToRally zone)

theorem ZoneConfig.encodes_iff (zone : ZoneConfig) :
    zone.Encodes ↔ ∀ p ∈ zone.points, p.Encodable := by
  rw [Encodes, zoneToMission_encodes_iff, zoneToFence_encodes_iff, zoneToRally_encodes_iff, points]
  simp only [List.forall_mem_append, List.forall_mem_singleton]
  tauto

/-- A coordinate pair of the file that stands for a position. -/
def InDegrees (raw : Yaml × Yaml) : Prop :=
  (∃ q, pyFloat raw.1 = .ok (.fin q) ∧ latInRange q) ∧
    ∃ q, pyFloat raw.2 = .ok (.fin q) ∧ lonInRange q

theorem Denotes.inDegrees_iff {raw : Yaml × Yaml} {point : LatLon} (h : Denotes raw point) :
    InDegrees raw ↔ point.Encodable := by
  rw [InDegrees, LatLon.Encodable, h.1, h.2]
  simp only [Except.ok.injEq]

theorem forall_inDegrees_iff {raw : List (Yaml × Yaml)} {points : List LatLon}
    (h : List.Forall₂ Denotes raw points) :
    (∀ c ∈ raw, InDegrees c) ↔ ∀ p ∈ points, p.Encodable := by
  induction h with
  | nil => simp
  | cons hden _ ih => rw [List.forall_mem_cons, List.forall_mem_cons, hden.inDegrees_iff, ih]

/-- A file that loads can be encoded in range exactly when every coordinate in it is in range. -/
theorem loadZoneConfig_encodes_iff {shapely : Shapely} {path : String} {file : YamlFile}
    {zone : ZoneConfig} (h : loadZoneConfig shapely path file = .ok zone) :
    zone.Encodes ↔ ∀ c ∈ rawPoints file, InDegrees c := by
  rw [zone.encodes_iff, forall_inDegrees_iff (loadZoneConfig_denotes h)]

/-- A lawn at the equator, with home at this latitude. -/
def homeFile (lat : ℤ) : YamlFile :=
  let vertex (lat lon : ℤ) : Yaml := .list [.float (.fin lat), .float (.fin lon)]
  .document (.dict [
    (.str "schema", .str "mower-rover.zone.v1"), (.str "zone_id", .str "ne"),
    (.str "name", .str "North East Lawn"), (.str "home", vertex lat 0),
    (.str "rally_point", .dict [(.str "lat", .float (.fin 0)), (.str "lon", .float (.fin 1))]),
    (.str "boundary", .list [vertex 0 0, vertex 0 1, vertex 1 1])])

def homeZone (lat : ℤ) : ZoneConfig where
  schema := "mower-rover.zone.v1"
  zoneId := "ne"
  home := ⟨.fin lat, .fin 0⟩
  rallyPoint := ⟨.fin 0, .fin 1⟩
  boundary := [⟨.fin 0, .fin 0⟩, ⟨.fin 0, .fin 1⟩, ⟨.fin 1, .fin 1⟩]

theorem loadZoneConfig_encodes_pole : (homeZone 90).Encodes := by
  have hload : loadZoneConfig ⟨fun _ => .ok true⟩ "zones/ne.yaml" (homeFile 90) =
      .ok (homeZone 90) := by decide +kernel
  apply (loadZoneConfig_encodes_iff hload).mpr
  intro c hc
  fin_cases hc <;> norm_num [InDegrees, pyFloat, latInRange, lonInRange]

/-- Home ten degrees past the pole. -/
theorem loadZoneConfig_past_pole :
    loadZoneConfig ⟨fun _ => .ok true⟩ "zones/ne.yaml" (homeFile 100) = .ok (homeZone 100) ∧
      ¬ (homeZone 100).Encodes := by
  refine ⟨by decide +kernel, fun hzone => ?_⟩
  rw [ZoneConfig.encodes_iff] at hzone
  obtain ⟨⟨q, hq, hrange⟩, -⟩ := hzone (homeZone 100).home (by simp [ZoneConfig.points])
  obtain rfl : (100 : ℚ) = q := by simpa [homeZone] using hq
  norm_num [latInRange] at hrange

end MowerRover.Zone
