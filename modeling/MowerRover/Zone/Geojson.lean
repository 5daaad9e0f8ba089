import MowerRover.GeoJson
import MowerRover.Zone.Config

/-!
# The GeoJSON export of a zone

A zone and its coverage path as a collection of features. Rings are closed and
otherwise left as the zone file has them, so that their direction is that of the
file.
-/

namespace MowerRover.Zone

open GeoJson Numeric

/-- The texts of a zone that its configuration does not keep. -/
structure ZoneTexts where
  name : String
  description : String
  pattern : String
  exclusionName : ℕ → String
  /-- as it stands in the file -/
  rallyDescription : Yaml

/-- `[pt.lon, pt.lat]`. -/
def lonLat (p : LatLon) : Yaml := .list [.float p.lon, .float p.lat]

/-- `coords.append(coords[0])`. -/
def closeRing : List Yaml → Except PyError (List Yaml)
  | [] => throw (.other "list index out of range")
  | first :: rest => pure (first :: rest ++ [first])

def feature (zoneId featureType : String) (properties : List (Yaml × Yaml)) (geometryType : String)
    (coordinates : Yaml) : Yaml :=
  .dict [(.str "type", .str "Feature"),
    (.str "properties", .dict ((.str "zone_id", .str zoneId) ::
      (.str "feature_type", .str featureType) :: properties)),
    (.str "geometry", .dict [(.str "type", .str geometryType), (.str "coordinates", coordinates)])]

section Export

variable (texts : ZoneTexts) (zone : ZoneConfig)

def boundaryFeature : Except PyError Yaml := do
  let ring ← closeRing (zone.boundary.map lonLat)
  pure (feature zone.zoneId "boundary"
    [(.str "name", .str texts.name), (.str "description", .str texts.description)]
    "Polygon" (.list [.list ring]))

def exclusionFeature (i : ℕ) (ez : ExclusionZone) : Except PyError Yaml := do
  let ring ← closeRing (ez.polygon.map lonLat)
  pure (feature zone.zoneId "exclusion"
    [(.str "name", .str (texts.exclusionName i)), (.str "buffer_m", .float ez.bufferM)]
    "Polygon" (.list [.list ring]))

def homeFeature : Yaml := feature zone.zoneId "home" [] "Point" (lonLat zone.home)

def rallyFeature : Yaml :=
  feature zone.zoneId "rally" [(.str "description", texts.rallyDescription)]
    "Point" (lonLat zone.rallyPoint)

def pathFeature (waypoints : List LatLon) : Yaml :=
  feature zone.zoneId "coverage_path"
    [(.str "waypoint_count", .int waypoints.length), (.str "pattern", .str texts.pattern),
      (.str "mow_speed_mps", .float zone.coverage.mowSpeedMps)]
    "LineString" (.list (waypoints.map lonLat))

def exportZoneGeojson (waypoints : List LatLon) : Except PyError Yaml := do
  let boundary ← boundaryFeature texts zone
  let exclusions ← zone.exclusionZones.zipIdx.mapM fun (ez, i) => exclusionFeature texts zone i ez
  let path := if waypoints.isEmpty then [] else [pathFeature texts zone waypoints]
  pure (.dict [(.str "type", .str "FeatureCollection"),
    (.str "properties", .dict [(.str "zone_id", .str zone.zoneId),
      (.str "zone_name", .str texts.name), (.str "description", .str texts.description)]),
    (.str "features",
      .list (boundary :: exclusions ++ [homeFeature zone, rallyFeature texts zone] ++ path))])

end Export

/-- The places of a zone and of its path. -/
structure ZoneShapes where
  boundary : List LatLon
  exclusions : List (List LatLon)
  home : LatLon
  rallyPoint : LatLon
  path : List LatLon
  deriving DecidableEq, Repr

def latLonOf (p : Position) : LatLon := ⟨p.lat, p.lon⟩

def isOfType (featureType : String) (f : Feature) : Bool :=
  match Yaml.lookup "feature_type" f.properties with
  | some (.str t) => t = featureType
  | _ => false

/-- The geometries of the features of a type, in order. -/
def geometriesOf (features : List Feature) (featureType : String) : List Geometry :=
  (features.filter (isOfType featureType)).map Feature.geometry

def readPoint : Geometry → Option LatLon
  | .point p => some (latLonOf p)
  | _ => none

/-- The corners of a polygon without holes. -/
def readCorners : Geometry → Option (List LatLon)
  | .polygon [ring] => some (ring.dropLast.map latLonOf)
  | _ => none

def readPath : Geometry → Option (List LatLon)
  | .lineString positions => some (positions.map latLonOf)
  | _ => none

/-- The only item of a list. -/
def only {α : Type} : List α → Option α
  | [a] => some a
  | _ => none

def readZone (doc : Yaml) : Option ZoneShapes := do
  let geometries := geometriesOf (← readCollection doc)
  pure { boundary := ← (only (geometries "boundary")).bind readCorners
         exclusions := ← (geometries "exclusion").mapM readCorners
         home := ← (only (geometries "home")).bind readPoint
         rallyPoint := ← (only (geometries "rally")).bind readPoint
         path := ← if (geometries "coverage_path").isEmpty then some []
           else (only (geometries "coverage_path")).bind readPath }

def positionOf (p : LatLon) : Position := ⟨p.lon, p.lat⟩

/-- The corners with the first of them once more at the end. -/
def closed (points : List LatLon) : List LatLon := points ++ points.head?.toList

/-- A polygon with one ring, which ends where it begins. -/
def polygonOf (points : List LatLon) : Geometry := .polygon [(closed points).map positionOf]

def featureOf (zoneId featureType : String) (properties : List (Yaml × Yaml))
    (geometry : Geometry) :
    Feature :=
  ⟨(.str "zone_id", .str zoneId) :: (.str "feature_type", .str featureType) :: properties, geometry⟩

@[simp] theorem geometry_featureOf (zoneId featureType : String) (properties : List (Yaml × Yaml))
    (geometry : Geometry) : (featureOf zoneId featureType properties geometry).geometry =
      geometry :=
  rfl

theorem writePositions_map (points : List LatLon) :
    writePositions (points.map positionOf) = .list (points.map lonLat) := by
  rw [writePositions, List.map_map]
  rfl

section Features

variable (texts : ZoneTexts) (zone : ZoneConfig)

def exclusionFeatures : List Feature :=
  zone.exclusionZones.zipIdx.map fun (ez, i) => featureOf zone.zoneId "exclusion"
    [(.str "name", .str (texts.exclusionName i)), (.str "buffer_m", .float ez.bufferM)]
    (polygonOf ez.polygon)

def pathFeatures (waypoints : List LatLon) : List Feature :=
  if waypoints.isEmpty then []
  else [featureOf zone.zoneId "coverage_path"
    [(.str "waypoint_count", .int waypoints.length), (.str "pattern", .str texts.pattern),
      (.str "mow_speed_mps", .float zone.coverage.mowSpeedMps)]
    (.lineString (waypoints.map positionOf))]

def zoneFeatures (waypoints : List LatLon) : List Feature :=
  featureOf zone.zoneId "boundary"
      [(.str "name", .str texts.name), (.str "description", .str texts.description)]
      (polygonOf zone.boundary) ::
    exclusionFeatures texts zone ++
    [featureOf zone.zoneId "home" [] (.point (positionOf zone.home)),
      featureOf zone.zoneId "rally" [(.str "description", texts.rallyDescription)]
        (.point (positionOf zone.rallyPoint))] ++
    pathFeatures texts zone waypoints

/-- Every polygon has three corners or more. -/
structure HasTriangles : Prop where
  boundary : 3 ≤ zone.boundary.length
  exclusions : ∀ ez ∈ zone.exclusionZones, 3 ≤ ez.polygon.length

end Features

section Exported

variable {texts : ZoneTexts} {zone : ZoneConfig} {points waypoints : List LatLon}

theorem ne_nil_of_three_le (h : 3 ≤ points.length) : points ≠ [] := by
  rintro rfl
  simp at h

theorem HasTriangles.exclusions_ne_nil (h : HasTriangles zone) :
    ∀ ez ∈ zone.exclusionZones, ez.polygon ≠ [] := fun ez hez =>
  ne_nil_of_three_le (h.exclusions ez hez)

theorem closeRing_map (h : points ≠ []) :
    closeRing (points.map lonLat) = .ok ((closed points).map lonLat) := by
  cases points with
  | nil => exact absurd rfl h
  | cons p points => simp [closeRing, closed]

theorem write_polygon (zoneId featureType : String) (properties : List (Yaml × Yaml))
    (points : List LatLon) :
    (featureOf zoneId featureType properties (polygonOf points)).write =
      feature zoneId featureType properties "Polygon"
        (.list [.list ((closed points).map lonLat)]) := by
  simp [featureOf, Feature.write, feature, polygonOf, Geometry.write, Geometry.write.dict,
    writePositions_map]

theorem write_exclusions (h : ∀ ez ∈ zone.exclusionZones, ez.polygon ≠ []) :
    zone.exclusionZones.zipIdx.mapM (fun (ez, i) => exclusionFeature texts zone i ez) =
      .ok ((exclusionFeatures texts zone).map Feature.write) := by
  rw [exclusionFeatures, List.map_map]
  apply mapM_eq_pure
  rintro ⟨ez, i⟩ hez
  have hpolygon := h ez (List.fst_mem_of_mem_zipIdx hez)
  simp [exclusionFeature, closeRing_map hpolygon, write_polygon]

/-- The export is what the library writes of these features. -/
theorem exportZoneGeojson_eq (h : HasTriangles zone) :
    exportZoneGeojson texts zone waypoints = .ok (writeCollection
      [(.str "zone_id", .str zone.zoneId), (.str "zone_name", .str texts.name),
        (.str "description", .str texts.description)] (zoneFeatures texts zone waypoints)) := by
  have hpath : (if waypoints.isEmpty then [] else [pathFeature texts zone waypoints]) =
      (pathFeatures texts zone waypoints).map Feature.write := by
    unfold pathFeatures
    split_ifs
    · rfl
    · simp [pathFeature, feature, featureOf, Feature.write, Geometry.write, Geometry.write.dict,
        writePositions_map]
  rw [exportZoneGeojson, boundaryFeature, closeRing_map (ne_nil_of_three_le h.boundary),
    write_exclusions h.exclusions_ne_nil, hpath, writeCollection, zoneFeatures]
  have hhome : (featureOf zone.zoneId "home" [] (.point (positionOf zone.home))).write =
      homeFeature zone := rfl
  have hrally : (featureOf zone.zoneId "rally" [(.str "description", texts.rallyDescription)]
      (.point (positionOf zone.rallyPoint))).write = rallyFeature texts zone := rfl
  simp [write_polygon, hhome, hrally]

theorem map_closed_cons (p : LatLon) (points : List LatLon) :
    (closed (p :: points)).map positionOf = (p :: points).map positionOf ++ [positionOf p] := by
  simp [closed]

theorem readCorners_polygonOf (h : points ≠ []) : readCorners (polygonOf points) = some points := by
  cases points with
  | nil => exact absurd rfl h
  | cons p points =>
    rw [polygonOf, readCorners, map_closed_cons, List.dropLast_concat, List.map_map]
    congr 1
    exact List.map_id _

theorem geometriesOf_append (fs gs : List Feature) (featureType : String) :
    geometriesOf (fs ++ gs) featureType =
      geometriesOf fs featureType ++ geometriesOf gs featureType := by
  rw [geometriesOf, List.filter_append, List.map_append]
  rfl

theorem isOfType_featureOf (zoneId featureType t : String) (properties : List (Yaml × Yaml))
    (geometry : Geometry) :
    isOfType t (featureOf zoneId featureType properties geometry) = decide (featureType = t) := by
  simp [isOfType, featureOf, Yaml.lookup_cons]

/-- Features of one type are found under it, and under no other. -/
theorem geometriesOf_map {α : Type} (zoneId featureType t : String)
    (properties : α → List (Yaml × Yaml)) (geometry : α → Geometry) (xs : List α) :
    geometriesOf (xs.map fun x => featureOf zoneId featureType (properties x) (geometry x)) t =
      if featureType = t then xs.map geometry else [] := by
  rw [geometriesOf, List.filter_map, List.map_map]
  by_cases ht : featureType = t
  · have hall : xs.filter (isOfType t ∘ fun x =>
        featureOf zoneId featureType (properties x) (geometry x)) = xs :=
      List.filter_eq_self.mpr fun x _ => by simp [isOfType_featureOf, ht]
    rw [hall, if_pos ht]
    rfl
  · have hnone : xs.filter (isOfType t ∘ fun x =>
        featureOf zoneId featureType (properties x) (geometry x)) = [] :=
      List.filter_eq_nil_iff.mpr fun x _ => by simp [isOfType_featureOf, ht]
    rw [hnone, if_neg ht]
    rfl

theorem geometriesOf_exclusions (t : String) :
    geometriesOf (exclusionFeatures texts zone) t =
      if "exclusion" = t then zone.exclusionZones.map fun ez => polygonOf ez.polygon else [] := by
  have hpolygons : zone.exclusionZones.zipIdx.map (fun x => polygonOf x.1.polygon) =
      zone.exclusionZones.map fun ez => polygonOf ez.polygon := by
    conv_rhs => rw [← List.zipIdx_map_fst 0 zone.exclusionZones, List.map_map]
    rfl
  rw [← hpolygons]
  exact geometriesOf_map zone.zoneId "exclusion" t _ _ zone.exclusionZones.zipIdx

theorem geometriesOf_cons (zoneId featureType t : String) (properties : List (Yaml × Yaml))
    (geometry : Geometry) (fs : List Feature) :
    geometriesOf (featureOf zoneId featureType properties geometry :: fs) t =
      (if featureType = t then [geometry] else []) ++ geometriesOf fs t := by
  rw [← List.singleton_append, geometriesOf_append]
  congr 1
  exact geometriesOf_map zoneId featureType t (fun _ => properties) (fun _ => geometry) [()]

theorem geometriesOf_path (t : String) :
    geometriesOf (pathFeatures texts zone waypoints) t =
      if "coverage_path" = t ∧ waypoints ≠ [] then [.lineString (waypoints.map positionOf)]
      else [] := by
  cases waypoints with
  | nil => simp [pathFeatures, geometriesOf]
  | cons p waypoints =>
    rw [pathFeatures, if_neg (by simp), geometriesOf_cons]
    simp [geometriesOf]

theorem readPath_map (points : List LatLon) :
    readPath (.lineString (points.map positionOf)) = some points := by
  rw [readPath, List.map_map]
  exact congrArg some (List.map_id points)

theorem geometriesOf_zoneFeatures (t : String) :
    geometriesOf (zoneFeatures texts zone waypoints) t =
      (if "boundary" = t then [polygonOf zone.boundary] else []) ++
      (if "exclusion" = t then zone.exclusionZones.map fun ez => polygonOf ez.polygon else []) ++
      (if "home" = t then [.point (positionOf zone.home)] else []) ++
      (if "rally" = t then [.point (positionOf zone.rallyPoint)] else []) ++
      (if "coverage_path" = t ∧ waypoints ≠ [] then [.lineString (waypoints.map positionOf)]
        else []) := by
  simp [zoneFeatures, geometriesOf_cons, geometriesOf_append, geometriesOf_exclusions,
    geometriesOf_path]

/-- The zone and its path are read back as they were. -/
theorem readZone_of_features (h : HasTriangles zone) {doc : Yaml}
    (hread : readCollection doc = some (zoneFeatures texts zone waypoints)) :
    readZone doc = some { boundary := zone.boundary
                          exclusions := zone.exclusionZones.map (·.polygon)
                          home := zone.home
                          rallyPoint := zone.rallyPoint
                          path := waypoints } := by
  have hboundary : (only (geometriesOf (zoneFeatures texts zone waypoints) "boundary")).bind
      readCorners = some zone.boundary := by
    have hone : geometriesOf (zoneFeatures texts zone waypoints) "boundary" =
        [polygonOf zone.boundary] := by simp [geometriesOf_zoneFeatures]
    rw [hone]
    exact readCorners_polygonOf (ne_nil_of_three_le h.boundary)
  have hexclusions : (geometriesOf (zoneFeatures texts zone waypoints) "exclusion").mapM
      readCorners = some (zone.exclusionZones.map (·.polygon)) := by
    have hall : geometriesOf (zoneFeatures texts zone waypoints) "exclusion" =
        zone.exclusionZones.map fun ez => polygonOf ez.polygon := by
      simp [geometriesOf_zoneFeatures]
    rw [hall, List.mapM_map]
    exact mapM_eq_pure fun ez hez => readCorners_polygonOf (h.exclusions_ne_nil ez hez)
  have hhome : (only (geometriesOf (zoneFeatures texts zone waypoints) "home")).bind readPoint =
      some zone.home := by
    simp [geometriesOf_zoneFeatures, only, readPoint, latLonOf, positionOf]
  have hrally : (only (geometriesOf (zoneFeatures texts zone waypoints) "rally")).bind readPoint =
      some zone.rallyPoint := by
    simp [geometriesOf_zoneFeatures, only, readPoint, latLonOf, positionOf]
  have hlines : geometriesOf (zoneFeatures texts zone waypoints) "coverage_path" =
      if waypoints ≠ [] then [.lineString (waypoints.map positionOf)] else [] := by
    simp [geometriesOf_zoneFeatures]
  rw [readZone, hread]
  simp only [Option.bind_eq_bind, Option.bind_some, hboundary, hexclusions, hhome, hrally, hlines]
  by_cases hnil : waypoints = []
  · simp [hnil]
  · simp [hnil, only, readPath_map]

/-- The vertex as Shapely is given it, when both coordinates are finite. -/
def LatLon.exact : LatLon → Option (ℚ × ℚ)
  | ⟨.fin lat, .fin lon⟩ => some (lat, lon)
  | _ => none

/-- The corners go around clockwise where the latitude is to the right and the longitude up. -/
def isLatLonClockwise (points : List LatLon) : Bool :=
  (points.mapM LatLon.exact).any (polygonArea · < 0)

theorem exact_positionOf (p : LatLon) : (positionOf p).exact = p.exact.map Prod.swap := by
  obtain ⟨lat, lon⟩ := p
  cases lat <;> cases lon <;> rfl

theorem mapM_map_option {α β γ : Type} (f : α → Option β) (g : β → γ) (xs : List α) :
    xs.mapM (fun x => (f x).map g) = (xs.mapM f).map (List.map g) := by
  induction xs with
  | nil => rfl
  | cons x xs ih =>
    rw [List.mapM_cons, List.mapM_cons, ih]
    cases f x <;> cases xs.mapM f <;> rfl

/-- The ring of the corners has their area with the other sign. -/
theorem signedArea_closed (h : points ≠ []) :
    signedArea ((closed points).map positionOf) =
      (points.mapM LatLon.exact).map fun corners => -polygonArea corners := by
  cases points with
  | nil => exact absurd rfl h
  | cons p points =>
    have hexact : (Position.exact ∘ positionOf) = fun q => (LatLon.exact q).map Prod.swap :=
      funext exact_positionOf
    rw [signedArea, List.mapM_map, hexact, mapM_map_option, closed, List.mapM_append,
      List.head?_cons, Option.toList_some, List.mapM_cons, List.mapM_cons, List.mapM_nil]
    cases p.exact with
    | none => rfl
    | some c =>
      cases points.mapM LatLon.exact with
      | none => rfl
      | some corners =>
        have harea : sweptArea ((c :: corners ++ [c]).map Prod.swap) =
            -polygonArea (c :: corners) := by
          rw [List.map_append, ← polygonArea_swap]
          exact sweptArea_close c.swap (corners.map Prod.swap)
        exact congrArg some harea

theorem isCounterclockwise_closed (h : points ≠ []) :
    isCounterclockwise ((closed points).map positionOf) = isLatLonClockwise points := by
  rw [isCounterclockwise, signedArea_closed h, isLatLonClockwise]
  cases points.mapM LatLon.exact <;> simp

theorem valid_polygonOf_iff (h : 3 ≤ points.length) :
    (polygonOf points).Valid ↔ isLatLonClockwise points = true := by
  have hne := ne_nil_of_three_le h
  have hring : IsLinearRing ((closed points).map positionOf) := by
    obtain ⟨p, rest, rfl⟩ := List.exists_cons_of_ne_nil hne
    constructor
    · rw [map_closed_cons, List.getLast?_concat]
      rfl
    · rw [map_closed_cons, List.length_append, List.length_map]
      exact Nat.succ_le_succ h
  simp [polygonOf, Geometry.Valid, hring, isCounterclockwise_closed hne]

theorem valid_exclusions_iff (h : HasTriangles zone) :
    (∀ f ∈ exclusionFeatures texts zone, f.geometry.Valid) ↔
      ∀ ez ∈ zone.exclusionZones, isLatLonClockwise ez.polygon = true := by
  constructor
  · intro hvalid ez hez
    obtain ⟨i, hi, rfl⟩ := List.getElem_of_mem hez
    rw [← valid_polygonOf_iff (h.exclusions _ hez)]
    have hnumbered : (zone.exclusionZones[i], i) ∈ zone.exclusionZones.zipIdx :=
      List.mk_mem_zipIdx_iff_getElem?.mpr (List.getElem?_eq_getElem hi)
    exact hvalid _ (List.mem_map_of_mem hnumbered)
  · intro hclockwise f hf
    obtain ⟨⟨ez, i⟩, hez, rfl⟩ := List.mem_map.mp hf
    have hmem := List.fst_mem_of_mem_zipIdx hez
    exact (valid_polygonOf_iff (h.exclusions ez hmem)).mpr (hclockwise ez hmem)

theorem valid_path_iff :
    (∀ f ∈ pathFeatures texts zone waypoints, f.geometry.Valid) ↔ waypoints.length ≠ 1 := by
  match waypoints with
  | [] => simp [pathFeatures]
  | [p] => simp [pathFeatures, featureOf, Geometry.Valid]
  | p :: q :: rest => simp [pathFeatures, featureOf, Geometry.Valid]

theorem valid_features_iff (h : HasTriangles zone) :
    (∀ f ∈ zoneFeatures texts zone waypoints, f.geometry.Valid) ↔
      isLatLonClockwise zone.boundary = true ∧
      (∀ ez ∈ zone.exclusionZones, isLatLonClockwise ez.polygon = true) ∧
      waypoints.length ≠ 1 := by
  simp only [zoneFeatures, List.cons_append, List.forall_mem_cons, List.forall_mem_append,
    geometry_featureOf, valid_polygonOf_iff h.boundary, valid_exclusions_iff h, valid_path_iff,
    valid_point, List.not_mem_nil, false_imp_iff, implies_true, and_true]

theorem loadZoneConfig_triangles {shapely : Shapely} {path : String} {file : YamlFile}
    (h : loadZoneConfig shapely path file = .ok zone) : HasTriangles zone := by
  obtain ⟨entries, -, hcoerced⟩ := coerced_of_load h
  exact ⟨coerceBoundary_length hcoerced.boundary, coerceExclusionZones_length
    hcoerced.exclusionZones⟩

/-- Of an accepted zone everything is read back, and its export is valid exactly when the corners of
every polygon run clockwise in the file's order of coordinates and there is not one waypoint only.
-/
theorem exportZoneGeojson_valid_iff {shapely : Shapely} {path : String} {file : YamlFile}
    (hload : loadZoneConfig shapely path file = .ok zone) (texts : ZoneTexts)
    (waypoints : List LatLon) :
    ∃ doc, exportZoneGeojson texts zone waypoints = .ok doc ∧
      (IsValid doc ↔ isLatLonClockwise zone.boundary = true ∧
        (∀ ez ∈ zone.exclusionZones, isLatLonClockwise ez.polygon = true) ∧
        waypoints.length ≠ 1) ∧
      readZone doc = some { boundary := zone.boundary
                            exclusions := zone.exclusionZones.map (·.polygon)
                            home := zone.home
                            rallyPoint := zone.rallyPoint
                            path := waypoints } := by
  have htriangles := loadZoneConfig_triangles hload
  refine ⟨_, exportZoneGeojson_eq htriangles, ?_, ?_⟩
  · rw [isValid_write_iff, valid_features_iff htriangles]
  · exact readZone_of_features htriangles (readCollection_write _ _)

end Exported

def lawnTexts : ZoneTexts where
  name := "Lawn"
  description := ""
  pattern := "boustrophedon"
  exclusionName _ := ""
  rallyDescription := .str ""

def latLonYaml (p : LatLon) : Yaml := .list [.float p.lat, .float p.lon]

def corner (lat lon : ℚ) : LatLon := ⟨.fin lat, .fin lon⟩

/-- The file of a lawn with this boundary. -/
def lawnFile (boundary : List LatLon) : YamlFile :=
  .document (.dict [(.str "schema", .str "mower-rover.zone.v1"), (.str "zone_id", .str "lawn"),
    (.str "name", .str "Lawn"), (.str "home", latLonYaml (corner 42 (-71))),
    (.str "rally_point", .dict [(.str "lat", .float (.fin 42)), (.str "lon", .float (.fin (-71)))]),
    (.str "boundary", .list (boundary.map latLonYaml))])

def lawnZone (boundary : List LatLon) : ZoneConfig where
  schema := "mower-rover.zone.v1"
  zoneId := "lawn"
  home := corner 42 (-71)
  rallyPoint := corner 42 (-71)
  boundary := boundary

/-- First to the east, then to the north. -/
def eastward : List LatLon :=
  [corner 42 (-71), corner 42 (-70), corner 43 (-70), corner 43 (-71)]

/-- First to the north, then to the east. -/
def northward : List LatLon :=
  [corner 42 (-71), corner 43 (-71), corner 43 (-70), corner 42 (-70)]

theorem exportZoneGeojson_eastward :
    ∃ doc, exportZoneGeojson lawnTexts (lawnZone eastward) eastward = .ok doc ∧
      (IsValid doc ↔ isLatLonClockwise eastward = true ∧
        (∀ ez ∈ (lawnZone eastward).exclusionZones, isLatLonClockwise ez.polygon = true) ∧
        eastward.length ≠ 1) ∧
      readZone doc = some { boundary := eastward
                            exclusions := []
                            home := corner 42 (-71)
                            rallyPoint := corner 42 (-71)
                            path := eastward } := by
  have hload : loadZoneConfig ⟨fun _ => .ok true⟩ "lawn.yaml" (lawnFile eastward) =
      .ok (lawnZone eastward) := rfl
  exact exportZoneGeojson_valid_iff hload lawnTexts eastward

/-- The lawn is accepted in either direction, but not every export is valid. -/
theorem northward_export_invalid :
    loadZoneConfig ⟨fun _ => .ok true⟩ "lawn.yaml" (lawnFile northward) = .ok (lawnZone northward) ∧
      ∃ doc, exportZoneGeojson lawnTexts (lawnZone northward) [] = .ok doc ∧ ¬ IsValid doc := by
  have htriangles : HasTriangles (lawnZone northward) := ⟨by decide, by simp [lawnZone]⟩
  refine ⟨rfl, _, exportZoneGeojson_eq htriangles, fun hvalid => ?_⟩
  rw [isValid_write_iff, valid_features_iff htriangles] at hvalid
  exact absurd hvalid.1 (by decide +kernel)

end MowerRover.Zone
