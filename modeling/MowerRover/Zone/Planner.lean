import Mathlib
import MowerRover.Numeric.Steps
import MowerRover.Zone.Config

/-!
# The coverage planner

Headland passes around the lawn and around what is excluded from it, and
parallel sweeps over what they leave. Coordinates are exact numbers of an
ordered field. What Shapely, `pyproj` and the trigonometric functions compute
are parameters: shapes are only ever passed on to them.
-/

namespace MowerRover.Zone

open Numeric

/-- The coordinates of a polygon's rings without the repeated last one. -/
structure PolygonPart (K : Type) where
  exterior : List (K × K)
  interiors : List (List (K × K))
  area : K

/-- A polygon, a collection of geometries of which some are polygons, or anything else. -/
inductive Parts (K : Type)
  | polygon (part : PolygonPart K)
  | geoms (parts : List (Option (PolygonPart K)))
  | other

/-- The coordinates of an intersection with a line. -/
inductive Clipped (K : Type)
  | empty
  | lineString (coords : List (K × K))
  | multiLineString (segments : List (List (K × K)))
  | other

structure Bounds (K : Type) where
  minx : K
  miny : K
  maxx : K
  maxy : K

structure Geometry (K : Type) where
  Shape : Type
  polygon : List (K × K) → Shape
  isValid : Shape → Bool
  isEmpty : Shape → Bool
  area : Shape → K
  buffer : Shape → K → Shape
  difference : Shape → Shape → Shape
  parts : Shape → Parts K
  bounds : Shape → Bounds K
  /-- by so many degrees around a point -/
  rotate : Shape → K → K × K → Shape
  /-- with the line from one point to another -/
  intersection : Shape → K × K → K × K → Clipped K
  cosDegrees : K → K
  sinDegrees : K → K

/-- `GeodeticProjector`, for one set of reference points. -/
structure Projector (K : Type) where
  toPlanar : LatLon → K × K
  toGeodetic : K × K → LatLon

/-- A cutting width and an overlap as the loader accepts them. -/
structure Swath (K : Type) [Field K] [LinearOrder K] where
  width : K
  overlap : K
  width_pos : 0 < width
  overlap_nonneg : 0 ≤ overlap
  overlap_le : overlap ≤ 50

/-- `cutting_width_m * (1.0 - overlap_pct / 100.0)`: the inset of a headland pass, and the
spacing of the sweep lines. -/
def Swath.spacing {K : Type} [Field K] [LinearOrder K] (swath : Swath K) : K :=
  swath.width * (1 - swath.overlap / 100)

section Spacing

variable {K : Type} [Field K] [LinearOrder K] [IsStrictOrderedRing K] (swath : Swath K)

theorem noOverlap_le : (0 : K) ≤ 50 := by norm_num

theorem Swath.spacing_le : swath.spacing ≤ swath.width := by
  apply mul_le_of_le_one_right swath.width_pos.le
  have := div_nonneg swath.overlap_nonneg (by norm_num : (0 : K) ≤ 100)
  linarith

theorem Swath.half_width_le : swath.width / 2 ≤ swath.spacing := by
  have hhalf : (1 : K) / 2 ≤ 1 - swath.overlap / 100 := by
    have := div_le_div_of_nonneg_right swath.overlap_le (by norm_num : (0 : K) ≤ 100)
    linarith
  have := mul_le_mul_of_nonneg_left hhalf swath.width_pos.le
  unfold spacing
  linarith

theorem Swath.spacing_pos : 0 < swath.spacing := by
  have := swath.half_width_le
  have := swath.width_pos
  linarith

end Spacing

section Planner

variable {K : Type} [Field K] [LinearOrder K] (geometry : Geometry K)

/-- The exterior and the holes, without those that have no coordinates. -/
def PolygonPart.rings (part : PolygonPart K) : List (List (K × K)) :=
  (part.exterior :: part.interiors).filter fun coords => !coords.isEmpty

def Parts.rings : Parts K → List (List (K × K))
  | .polygon part => part.rings
  | .geoms parts => parts.reduceOption.flatMap fun part => if 1 < part.area then part.rings else []
  | .other => []

/-- `buffer(0)` for a polygon that is not valid. -/
def fixed (shape : geometry.Shape) : geometry.Shape :=
  if geometry.isValid shape then shape else geometry.buffer shape 0

/-- The lawn without what is closer than half a metre to an exclusion zone. -/
def headlandArea (boundaryXY : List (K × K)) (exclusionsXY : List (List (K × K))) :
    geometry.Shape :=
  exclusionsXY.foldl (fun mowable exclXY =>
      geometry.difference mowable (geometry.buffer (fixed geometry (geometry.polygon exclXY))
        (1 / (2 : ℕ))))
    (fixed geometry (geometry.polygon boundaryXY))

/-- The rounds that are left, each over a shape that the one before it has inset. -/
def headlandRounds (insetDistance : K) : ℕ → geometry.Shape → List (List (K × K))
  | 0, _ => []
  | rounds + 1, current =>
    if geometry.isEmpty current || geometry.area current < 1 then []
    else
      let next := geometry.buffer current (-insetDistance)
      (geometry.parts current).rings ++
        if geometry.isEmpty next then [] else headlandRounds insetDistance rounds next

def generateHeadlandPasses (boundaryXY : List (K × K)) (exclusionsXY : List (List (K × K)))
    (swath : Swath K) (numPasses : ℤ) : List (List (K × K)) :=
  if numPasses ≤ 0 then []
  else
    let mowable := headlandArea geometry boundaryXY exclusionsXY
    if geometry.isEmpty mowable then []
    else headlandRounds geometry swath.spacing numPasses.toNat mowable

/-- The coordinates of one sweep line, from the left or from the right. -/
def sweepCoords (rotated : geometry.Shape) (bounds : Bounds K) (leftToRight : Bool) (y : K) :
    List (K × K) :=
  let left := (bounds.minx - 10, y)
  let right := (bounds.maxx + 10, y)
  match geometry.intersection rotated (if leftToRight then left else right)
      (if leftToRight then right else left) with
  | .lineString coords => coords
  | .multiLineString segments =>
    if leftToRight then segments.flatten else (segments.reverse.map List.reverse).flatten
  | .empty | .other => []

/-- The lines in their order, in alternating directions. -/
def sweeps (rotated : geometry.Shape) (bounds : Bounds K) : Bool → List K → List (K × K)
  | _, [] => []
  | leftToRight, y :: ys =>
    sweepCoords geometry rotated bounds leftToRight y ++ sweeps rotated bounds (!leftToRight) ys

/-- The polygon turned so that the sweeps run from left to right. -/
def rotatedPolygon (mowable : geometry.Shape) (angleDeg : K) : geometry.Shape :=
  geometry.rotate mowable (-angleDeg)
    ((geometry.bounds mowable).minx, (geometry.bounds mowable).miny)

/-- A point turned back around the corner of the bounding box. -/
def rotateBack (origin : K × K) (angleDeg : K) (point : K × K) : K × K :=
  let tx := point.1 - origin.1
  let ty := point.2 - origin.2
  (tx * geometry.cosDegrees angleDeg - ty * geometry.sinDegrees angleDeg + origin.1,
    tx * geometry.sinDegrees angleDeg + ty * geometry.cosDegrees angleDeg + origin.2)

variable [IsStrictOrderedRing K] [FloorRing K]

/-- `y` goes from half a spacing above the lowest point to half a spacing below the highest. -/
def sweepLines (swath : Swath K) (bounds : Bounds K) : List K :=
  stepsTo swath.spacing (bounds.maxy - swath.spacing / (2 : ℕ)) swath.spacing_pos
    (bounds.miny + swath.spacing / (2 : ℕ))

def generateBoustrophedonFill (mowable : geometry.Shape) (swath : Swath K) (angleDeg : K) :
    List (K × K) :=
  if geometry.isEmpty mowable || geometry.area mowable < 1 then []
  else
    let bounds := geometry.bounds mowable
    let rotated := rotatedPolygon geometry mowable angleDeg
    let rotatedBounds := geometry.bounds rotated
    let waypoints := sweeps geometry rotated rotatedBounds true (sweepLines swath rotatedBounds)
    if angleDeg = 0 then waypoints
    else waypoints.map (rotateBack geometry (bounds.minx, bounds.miny) angleDeg)

/-- The lawn for the fill, which is computed a second time. -/
def fillArea (boundaryXY : List (K × K)) (exclusionsXY : List (List (K × K))) : geometry.Shape :=
  exclusionsXY.foldl (fun mowable exclXY =>
      geometry.difference mowable (geometry.buffer (geometry.polygon exclXY) (1 / (2 : ℕ))))
    (geometry.polygon boundaryXY)

/-- The insets of all headland passes, up to the first that leaves nothing. -/
def innermost (insetDistance : K) : ℕ → geometry.Shape → geometry.Shape
  | 0, shape => shape
  | passes + 1, shape =>
    let inset := geometry.buffer shape (-insetDistance)
    if geometry.isEmpty inset then inset else innermost insetDistance passes inset

def innermostPolygon (boundaryXY : List (K × K)) (exclusionsXY : List (List (K × K)))
    (swath : Swath K) (headlandPasses : ℤ) : geometry.Shape :=
  innermost geometry swath.spacing headlandPasses.toNat (fillArea geometry boundaryXY exclusionsXY)

/-- The waypoints in metres: the headland passes, then the fill of what they leave. -/
def planarWaypoints (boundaryXY : List (K × K)) (exclusionsXY : List (List (K × K)))
    (swath : Swath K) (angleDeg : K) (headlandPasses : ℤ) : List (K × K) :=
  let passes := generateHeadlandPasses geometry boundaryXY exclusionsXY swath headlandPasses
  let inner := innermostPolygon geometry boundaryXY exclusionsXY swath headlandPasses
  passes.flatten ++
    if passes.isEmpty || geometry.isEmpty inner || geometry.area inner ≤ 1 then []
    else generateBoustrophedonFill geometry inner swath angleDeg

/-- `cutting_width_in * 0.0254`, with the overlap; nothing where one of them is no number the
planner can use. -/
def swathOf (coverage : CoverageParams) : Option (Swath K) :=
  match coverage.cuttingWidthIn, coverage.overlapPct with
  | .fin width, .fin overlap =>
    if h : (0 : K) < (width : K) * (127 / 5000) ∧ (0 : K) ≤ overlap ∧ (overlap : K) ≤ 50 then
      some ⟨_, _, h.1, h.2.1, h.2.2⟩
    else none
  | _, _ => none

/-- The plan of a zone in metres. Where headland passes are asked for there is none for a width or
an angle that is not finite. -/
def planarPlan (projector : List LatLon → Projector K) (zone : ZoneConfig) : Option
    (List (K × K)) :=
  let toPlanar := (projector zone.boundary).toPlanar
  match swathOf zone.coverage, zone.coverage.angleDeg with
  | some swath, .fin angleDeg =>
    some (planarWaypoints geometry (zone.boundary.map toPlanar)
      (zone.exclusionZones.map fun exclusion => exclusion.polygon.map toPlanar)
      swath angleDeg zone.coverage.headlandPasses)
  | _, _ => if zone.coverage.headlandPasses ≤ 0 then some [] else none

/-- What the texts of a `PlannerError` are made of. -/
inductive PlannerError
  | cuttingWidth (got : PyFloat)
  | failed (zoneId : String)
  deriving DecidableEq, Repr

def generateWaypoints (projector : List LatLon → Projector K) (zone : ZoneConfig) :
    Except PlannerError (List LatLon) :=
  if zone.coverage.cuttingWidthIn.le (.fin 0) then
    throw (.cuttingWidth zone.coverage.cuttingWidthIn)
  else
    match planarPlan geometry projector zone with
    | some waypoints => pure (waypoints.map (projector zone.boundary).toGeodetic)
    | none => throw (.failed zone.zoneId)

variable {geometry} {projector : List LatLon → Projector K} {zone : ZoneConfig}

theorem planarPlan_eq_nil {plan : List (K × K)} (h : planarPlan geometry projector zone = some plan)
    (hpasses : zone.coverage.headlandPasses ≤ 0) : plan = [] := by
  unfold planarPlan at h
  dsimp only at h
  split at h
  · obtain rfl := Option.some.inj h
    simp [planarWaypoints, generateHeadlandPasses, hpasses]
  · rw [if_pos hpasses] at h
    exact (Option.some.inj h).symm

theorem planarWaypoints_eq_append {boundaryXY : List (K × K)} {exclusionsXY : List (List (K × K))}
    (swath : Swath K) (angleDeg : K) {headlandPasses : ℤ} (hpasses : 0 < headlandPasses)
    (hempty : geometry.isEmpty (headlandArea geometry boundaryXY exclusionsXY) = false)
    (harea : 1 ≤ geometry.area (headlandArea geometry boundaryXY exclusionsXY)) :
    ∃ rest, planarWaypoints geometry boundaryXY exclusionsXY swath angleDeg headlandPasses =
      (geometry.parts (headlandArea geometry boundaryXY exclusionsXY)).rings.flatten ++ rest := by
  obtain ⟨rounds, hrounds⟩ : ∃ rounds, headlandPasses.toNat = rounds + 1 :=
    ⟨headlandPasses.toNat - 1, by omega⟩
  unfold planarWaypoints generateHeadlandPasses
  dsimp only
  rw [if_neg (by omega), hempty, if_neg Bool.false_ne_true, hrounds, headlandRounds, hempty,
    Bool.false_or, decide_eq_false harea.not_gt, if_neg Bool.false_ne_true, List.flatten_append,
    List.append_assoc]
  exact ⟨_, rfl⟩

end Planner

end MowerRover.Zone
