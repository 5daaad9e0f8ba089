import MowerRover.Yaml

/-!
# GeoJSON

The features of RFC 7946 as far as they are points, lines and polygons, read
from a document, and what the RFC asks of their geometries. With the longitude
to the right and the latitude up a ring is counterclockwise when its signed area
is positive.
-/

namespace MowerRover.GeoJson

open Numeric

section SignedArea

variable {K : Type} [CommRing K]

def cross (p q : K × K) : K := p.1 * q.2 - q.1 * p.2

/-- Twice the area that the line from the origin sweeps along a path. -/
def sweptArea : List (K × K) → K
  | p :: q :: rest => cross p q + sweptArea (q :: rest)
  | _ => 0

/-- Twice the signed area of the polygon with these corners. -/
def polygonArea (corners : List (K × K)) : K :=
  (List.zipWith cross corners (corners.rotate 1)).sum

theorem sweptArea_eq_sum (path : List (K × K)) :
    sweptArea path = (List.zipWith cross path path.tail).sum := by
  induction path with
  | nil => rfl
  | cons p path ih =>
    cases path with
    | nil => rfl
    | cons q path =>
      rw [sweptArea, ih]
      simp

theorem sweptArea_close (p : K × K) (rest : List (K × K)) :
    sweptArea (p :: rest ++ [p]) = polygonArea (p :: rest) := by
  have hlength : (p :: rest).length = (rest ++ [p]).length := by simp
  -- the last corner has no partner in the path
  have hzip : List.zipWith cross (p :: rest ++ [p]) (rest ++ [p] ++ []) =
      List.zipWith cross (p :: rest) (rest ++ [p]) ++ List.zipWith cross [p] [] :=
    List.zipWith_append hlength
  rw [sweptArea_eq_sum, polygonArea, List.rotate_cons_succ, List.rotate_zero]
  rw [List.append_nil, List.zipWith_nil_right, List.append_nil] at hzip
  exact congrArg List.sum hzip

theorem cross_swap (p q : K × K) : cross p.swap q.swap = -cross p q := by
  unfold cross
  simp only [Prod.fst_swap, Prod.snd_swap]
  ring

theorem polygonArea_swap (corners : List (K × K)) :
    polygonArea (corners.map Prod.swap) = -polygonArea corners := by
  rw [polygonArea, polygonArea, ← List.map_rotate, List.zipWith_map, List.sum_neg, List.map_zipWith]
  simp only [cross_swap]

end SignedArea

structure Position where
  lon : PyFloat
  lat : PyFloat
  deriving DecidableEq, Repr

inductive Geometry
  | point (position : Position)
  | lineString (positions : List Position)
  | polygon (rings : List (List Position))
  deriving DecidableEq, Repr

structure Feature where
  properties : List (Yaml × Yaml)
  geometry : Geometry

def readPosition : Yaml → Option Position
  | .list [.float lon, .float lat] => some ⟨lon, lat⟩
  | _ => none

def readPositions : Yaml → Option (List Position)
  | .list positions => positions.mapM readPosition
  | _ => none

def readGeometry : Yaml → Option Geometry
  | .dict entries =>
    match Yaml.lookup "type" entries, Yaml.lookup "coordinates" entries with
    | some (.str "Point"), some raw => (readPosition raw).map .point
    | some (.str "LineString"), some raw => (readPositions raw).map .lineString
    | some (.str "Polygon"), some (.list rings) => (rings.mapM readPositions).map .polygon
    | _, _ => none
  | _ => none

def readFeature : Yaml → Option Feature
  | .dict entries =>
    match Yaml.lookup "type" entries, Yaml.lookup "properties" entries,
        Yaml.lookup "geometry" entries with
    | some (.str "Feature"), some (.dict properties), some raw =>
      (readGeometry raw).map fun geometry => ⟨properties, geometry⟩
    | _, _, _ => none
  | _ => none

def readCollection : Yaml → Option (List Feature)
  | .dict entries =>
    match Yaml.lookup "type" entries, Yaml.lookup "features" entries with
    | some (.str "FeatureCollection"), some (.list features) => features.mapM readFeature
    | _, _ => none
  | _ => none

def Position.write (p : Position) : Yaml := .list [.float p.lon, .float p.lat]

def writePositions (ps : List Position) : Yaml := .list (ps.map Position.write)

def Geometry.write : Geometry → Yaml
  | .point p => dict "Point" p.write
  | .lineString ps => dict "LineString" (writePositions ps)
  | .polygon rings => dict "Polygon" (.list (rings.map writePositions))
where
  dict (type : String) (coordinates : Yaml) : Yaml :=
    .dict [(.str "type", .str type), (.str "coordinates", coordinates)]

def Feature.write (f : Feature) : Yaml :=
  .dict [(.str "type", .str "Feature"), (.str "properties", .dict f.properties),
    (.str "geometry", f.geometry.write)]

def writeCollection (properties : List (Yaml × Yaml)) (features : List Feature) : Yaml :=
  .dict [(.str "type", .str "FeatureCollection"), (.str "properties", .dict properties),
    (.str "features", .list (features.map Feature.write))]

theorem mapM_map_eq_some {α β : Type} {write : α → β} {read : β → Option α}
    (h : ∀ a, read (write a) = some a) (xs : List α) : (xs.map write).mapM read = some xs := by
  rw [List.mapM_map]
  calc xs.mapM (read ∘ write) = some (xs.map id) := mapM_eq_pure fun a _ => h a
    _ = some xs := by rw [List.map_id]

theorem readPosition_write (p : Position) : readPosition p.write = some p := rfl

theorem readPositions_write (ps : List Position) : readPositions (writePositions ps) = some ps :=
  mapM_map_eq_some readPosition_write ps

theorem readGeometry_write (g : Geometry) : readGeometry g.write = some g := by
  cases g with
  | point p => rfl
  | lineString ps =>
    simp [Geometry.write, Geometry.write.dict, readGeometry, Yaml.lookup_cons, readPositions_write]
  | polygon rings =>
    have hrings := mapM_map_eq_some readPositions_write rings
    simp [Geometry.write, Geometry.write.dict, readGeometry, Yaml.lookup_cons, hrings]

theorem readFeature_write (f : Feature) : readFeature f.write = some f := by
  simp [readFeature, Feature.write, Yaml.lookup_cons, readGeometry_write]

theorem readCollection_write (properties : List (Yaml × Yaml)) (features : List Feature) :
    readCollection (writeCollection properties features) = some features := by
  have hfeatures := mapM_map_eq_some readFeature_write features
  simp [readCollection, writeCollection, Yaml.lookup_cons, hfeatures]

/-- The position as exact numbers, when both are finite. -/
def Position.exact : Position → Option (ℚ × ℚ)
  | ⟨.fin lon, .fin lat⟩ => some (lon, lat)
  | _ => none

/-- Twice the signed area of a closed ring. -/
def signedArea (ring : List Position) : Option ℚ := (ring.mapM Position.exact).map sweptArea

def isCounterclockwise (ring : List Position) : Bool := (signedArea ring).any (0 < ·)

def isClockwise (ring : List Position) : Bool := (signedArea ring).any (· < 0)

/-- Closed, with four positions or more. -/
structure IsLinearRing (ring : List Position) : Prop where
  closed : ring.head? = ring.getLast?
  four_le : 4 ≤ ring.length

/-- The first ring of a polygon is the outer one, and the others are holes in it. -/
def Geometry.Valid : Geometry → Prop
  | .point _ => True
  | .lineString positions => 2 ≤ positions.length
  | .polygon [] => False
  | .polygon (outer :: holes) => (IsLinearRing outer ∧ isCounterclockwise outer = true) ∧
    ∀ hole ∈ holes, IsLinearRing hole ∧ isClockwise hole = true

@[simp] theorem valid_point (p : Position) : (Geometry.point p).Valid := trivial

/-- The document is a collection of features with valid geometries. -/
def IsValid (doc : Yaml) : Prop :=
  ∃ features, readCollection doc = some features ∧ ∀ f ∈ features, f.geometry.Valid

theorem isValid_write_iff (properties : List (Yaml × Yaml)) (features : List Feature) :
    IsValid (writeCollection properties features) ↔ ∀ f ∈ features, f.geometry.Valid := by
  simp [IsValid, readCollection_write]

end MowerRover.GeoJson
