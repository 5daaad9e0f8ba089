import MowerRover.Zone.Clearance
import MowerRover.Zone.Rectangles

/-!
# When the fill is planned

The planner looks at the headland passes to decide about the fill. Without any
there is no fill, and no plan, however large the area is.
-/

namespace MowerRover.Zone

open Numeric

section Passes

variable {K : Type} [Field K] [LinearOrder K] (geometry : Geometry K)

/-- A shape after so many insets. -/
def insets (insetDistance : K) : ℕ → geometry.Shape → geometry.Shape
  | 0, shape => shape
  | passes + 1, shape => insets insetDistance passes (geometry.buffer shape (-insetDistance))

/-- Not empty, and of a square metre at least. -/
def Drivable (shape : geometry.Shape) : Prop :=
  geometry.isEmpty shape = false ∧ 1 ≤ geometry.area shape

/-- One of so many insets has a ring to drive, and none before it is too small. -/
def HasRing (insetDistance : K) (rounds : ℕ) (shape : geometry.Shape) : Prop :=
  ∃ pass < rounds, (∀ earlier ≤ pass, Drivable geometry
    (insets geometry insetDistance earlier shape)) ∧
    (geometry.parts (insets geometry insetDistance pass shape)).rings ≠ []

variable {geometry} {insetDistance : K} {rounds : ℕ} {shape : geometry.Shape}

theorem drivable_iff : ¬ (geometry.isEmpty shape || geometry.area shape < 1) = true ↔
    Drivable geometry shape := by
  simp [Drivable]

/-- The first ring is there, or one of the rings inside. -/
theorem hasRing_succ : HasRing geometry insetDistance (rounds + 1) shape ↔
    Drivable geometry shape ∧ ((geometry.parts shape).rings ≠ [] ∨
      HasRing geometry insetDistance rounds (geometry.buffer shape (-insetDistance))) := by
  constructor
  · rintro ⟨pass, hpass, hdrivable, hrings⟩
    refine ⟨hdrivable 0 pass.zero_le, ?_⟩
    cases pass with
    | zero => exact .inl hrings
    | succ pass =>
      refine .inr ⟨pass, by omega, fun earlier hearlier => ?_, hrings⟩
      exact hdrivable (earlier + 1) (by omega)
  · rintro ⟨hdrivable, hrings | ⟨pass, hpass, hinside, hrings⟩⟩
    · refine ⟨0, rounds.succ_pos, fun earlier hearlier => ?_, hrings⟩
      obtain rfl : earlier = 0 := by omega
      exact hdrivable
    · refine ⟨pass + 1, by omega, fun earlier hearlier => ?_, hrings⟩
      cases earlier with
      | zero => exact hdrivable
      | succ earlier => exact hinside earlier (by omega)

theorem hasRing_drivable (h : HasRing geometry insetDistance rounds shape) :
    Drivable geometry shape := by
  obtain ⟨pass, -, hdrivable, -⟩ := h
  exact hdrivable 0 pass.zero_le

theorem headlandRounds_ne_nil_iff : headlandRounds geometry insetDistance rounds shape ≠ [] ↔
    HasRing geometry insetDistance rounds shape := by
  induction rounds generalizing shape with
  | zero => simp [headlandRounds, HasRing]
  | succ rounds ih =>
    rw [hasRing_succ, headlandRounds]
    by_cases hdrivable : Drivable geometry shape
    · rw [if_neg (drivable_iff.mpr hdrivable), ← ih]
      dsimp only
      rw [Ne, List.append_eq_nil_iff, not_and_or]
      cases hempty : geometry.isEmpty (geometry.buffer shape (-insetDistance)) with
      | false => simp [hdrivable]
      | true =>
        -- an empty shape has no rings inside either
        have hnone : headlandRounds geometry insetDistance rounds
            (geometry.buffer shape (-insetDistance)) = [] := by
          cases rounds <;> simp [headlandRounds, hempty]
        simp [hdrivable, hnone]
    · rw [if_pos (not_not.mp (mt drivable_iff.mp hdrivable))]
      simp [hdrivable]

variable {boundaryXY : List (K × K)} {exclusionsXY : List (List (K × K))} {swath : Swath K}
  {headlandPasses : ℤ}

/-- There are headland passes when some are asked for and one has a ring. -/
theorem headlandPasses_ne_nil_iff :
    generateHeadlandPasses geometry boundaryXY exclusionsXY swath headlandPasses ≠ [] ↔
      0 < headlandPasses ∧ HasRing geometry swath.spacing headlandPasses.toNat
        (headlandArea geometry boundaryXY exclusionsXY) := by
  rw [generateHeadlandPasses]
  by_cases hpasses : headlandPasses ≤ 0
  · rw [if_pos hpasses]
    simp [hpasses.not_gt]
  · rw [if_neg hpasses]
    dsimp only
    cases hempty : geometry.isEmpty (headlandArea geometry boundaryXY exclusionsXY) with
    | false => simp [headlandRounds_ne_nil_iff, not_le.mp hpasses]
    | true =>
      have hnone : ¬ HasRing geometry swath.spacing headlandPasses.toNat
          (headlandArea geometry boundaryXY exclusionsXY) := by
        intro h
        have hsome := (hasRing_drivable h).1
        rw [hempty] at hsome
        cases hsome
      simp [hnone]

theorem parts_rings_ne_nil (parts : Parts K) : ∀ ring ∈ parts.rings, ring ≠ [] := by
  have hpart : ∀ part : PolygonPart K, ∀ ring ∈ part.rings, ring ≠ [] := by
    intro part ring hring
    simpa using (List.mem_filter.mp hring).2
  intro ring hring
  cases parts with
  | polygon part => exact hpart part ring hring
  | geoms parts =>
    obtain ⟨part, -, hring⟩ := List.mem_flatMap.mp hring
    split_ifs at hring
    · exact hpart part ring hring
    · cases hring
  | other => cases hring

theorem headlandRounds_ring_ne_nil :
    ∀ ring ∈ headlandRounds geometry insetDistance rounds shape, ring ≠ [] := by
  induction rounds generalizing shape with
  | zero => simp [headlandRounds]
  | succ rounds ih =>
    intro ring hring
    rw [headlandRounds] at hring
    split_ifs at hring
    · cases hring
    · rcases List.mem_append.mp hring with hring | hring
      · exact parts_rings_ne_nil _ ring hring
      · split_ifs at hring
        · cases hring
        · exact ih ring hring

theorem headlandPasses_flatten_eq_nil_iff :
    (generateHeadlandPasses geometry boundaryXY exclusionsXY swath headlandPasses).flatten = [] ↔
      generateHeadlandPasses geometry boundaryXY exclusionsXY swath headlandPasses = [] := by
  constructor
  · intro hflat
    by_contra hne
    obtain ⟨ring, hring⟩ := List.exists_mem_of_ne_nil _ hne
    have hnil : ring = [] := List.flatten_eq_nil_iff.mp hflat ring hring
    have hfull : ring ≠ [] := by
      rw [generateHeadlandPasses] at hring
      split_ifs at hring
      · cases hring
      · dsimp only at hring
        split_ifs at hring
        · cases hring
        · exact headlandRounds_ring_ne_nil ring hring
    exact hfull hnil
  · intro h
    rw [h, List.flatten_nil]

end Passes

section Plans

variable {K : Type} [Field K] [LinearOrder K] [IsStrictOrderedRing K] [FloorRing K]
  {geometry : Geometry K} {projector : List LatLon → Projector K} {zone : ZoneConfig}
  {boundaryXY : List (K × K)} {exclusionsXY : List (List (K × K))} {swath : Swath K}
  {headlandPasses : ℤ}

theorem planarWaypoints_of_room (angleDeg : K)
    (hempty : geometry.isEmpty
      (innermostPolygon geometry boundaryXY exclusionsXY swath headlandPasses) = false)
    (harea : 1 < geometry.area
      (innermostPolygon geometry boundaryXY exclusionsXY swath headlandPasses)) :
    planarWaypoints geometry boundaryXY exclusionsXY swath angleDeg headlandPasses =
      let passes := generateHeadlandPasses geometry boundaryXY exclusionsXY swath headlandPasses
      if passes = [] then [] else passes.flatten ++ generateBoustrophedonFill geometry
        (innermostPolygon geometry boundaryXY exclusionsXY swath headlandPasses) swath
          angleDeg := by
  unfold planarWaypoints
  dsimp only
  rw [hempty, decide_eq_false harea.not_ge, Bool.or_false, Bool.or_false]
  cases generateHeadlandPasses geometry boundaryXY exclusionsXY swath headlandPasses <;> rfl

omit [IsStrictOrderedRing K] [FloorRing K] in
theorem width_of_swathOf {coverage : CoverageParams} (h : swathOf coverage = some swath) :
    ∃ width : ℚ, coverage.cuttingWidthIn = .fin width ∧ (0 : K) < width * (127 / 5000) := by
  unfold swathOf at h
  split at h
  · rename_i width overlap hwidth hoverlap
    split_ifs at h with husable
    exact ⟨width, hwidth, husable.1⟩
  · cases h

section Areas

variable (geometry projector zone)

/-- The boundary of the lawn in metres. -/
def planarBoundary : List (K × K) := zone.boundary.map (projector zone.boundary).toPlanar

def planarExclusions : List (List (K × K)) :=
  zone.exclusionZones.map fun exclusion => exclusion.polygon.map (projector zone.boundary).toPlanar

/-- The area that the headland passes leave. -/
def fillOf (swath : Swath K) : geometry.Shape :=
  innermostPolygon geometry (planarBoundary projector zone) (planarExclusions projector zone) swath
    zone.coverage.headlandPasses

end Areas

/-- A plan in metres is returned in degrees. -/
theorem generateWaypoints_eq {angleDeg : ℚ} (hswath : swathOf zone.coverage = some swath)
    (hangle : zone.coverage.angleDeg = .fin angleDeg) :
    generateWaypoints geometry projector zone =
      .ok ((planarWaypoints geometry (planarBoundary projector zone)
        (planarExclusions projector zone)
        swath angleDeg zone.coverage.headlandPasses).map (projector zone.boundary).toGeodetic) := by
  obtain ⟨width, hwidth, hpos⟩ := width_of_swathOf hswath
  have hpos : 0 < width := Rat.cast_pos.mp ((mul_pos_iff_of_pos_right (by norm_num)).mp hpos)
  have hguard : zone.coverage.cuttingWidthIn.le (.fin 0) = false := by
    rw [hwidth]
    simpa [PyFloat.le] using hpos
  have hplan : planarPlan geometry projector zone = some (planarWaypoints geometry
      (planarBoundary projector zone) (planarExclusions projector zone) swath angleDeg
      zone.coverage.headlandPasses) := by
    unfold planarPlan
    dsimp only
    rw [hswath, hangle]
    rfl
  rw [generateWaypoints, hguard, if_neg Bool.false_ne_true, hplan]
  rfl

section Zone

variable (geometry projector zone)

/-- The headland passes and the fill of the area inside them are returned, and that is something. -/
structure FillPlanned (swath : Swath K) (angleDeg : ℚ) : Prop where
  returned : generateWaypoints geometry projector zone =
    .ok (((generateHeadlandPasses geometry (planarBoundary projector zone)
        (planarExclusions projector zone) swath zone.coverage.headlandPasses).flatten ++
      generateBoustrophedonFill geometry (fillOf geometry projector zone swath) swath angleDeg).map
        (projector zone.boundary).toGeodetic)
  not_empty : generateWaypoints geometry projector zone ≠ .ok []

variable {geometry projector zone}

/-- Where there is more than one square metre inside the headland passes, the fill is planned
exactly when a headland pass is asked for and one of them has a ring: up to it what is left of the
lawn has a square metre, and it is one polygon or has a piece of more than a square metre. -/
theorem fillPlanned_iff {angleDeg : ℚ} (hswath : swathOf zone.coverage = some swath)
    (hangle : zone.coverage.angleDeg = .fin angleDeg)
    (hempty : geometry.isEmpty (fillOf geometry projector zone swath) = false)
    (harea : 1 < geometry.area (fillOf geometry projector zone swath)) :
    FillPlanned geometry projector zone swath angleDeg ↔
      0 < zone.coverage.headlandPasses ∧ HasRing geometry swath.spacing
        zone.coverage.headlandPasses.toNat
        (headlandArea geometry (planarBoundary projector zone)
          (planarExclusions projector zone)) := by
  have hwaypoints : generateWaypoints geometry projector zone = _ :=
    generateWaypoints_eq hswath hangle
  rw [planarWaypoints_of_room (angleDeg : K) hempty harea] at hwaypoints
  dsimp only at hwaypoints
  rw [← headlandPasses_ne_nil_iff]
  constructor
  · intro h hnil
    rw [if_pos hnil] at hwaypoints
    exact h.not_empty hwaypoints
  · intro hne
    rw [if_neg hne] at hwaypoints
    refine ⟨hwaypoints, fun hnil => ?_⟩
    rw [hnil] at hwaypoints
    have hflat := List.map_eq_nil_iff.mp (Except.ok.inj hwaypoints).symm
    exact hne (headlandPasses_flatten_eq_nil_iff.mp (List.append_eq_nil_iff.mp hflat).1)

end Zone

end Plans

/-- A lawn of five steps by twelve without exclusion zones. -/
def openFile (headlandPasses : ℤ) : YamlFile :=
  .document (.dict [
    (.str "schema", .str "mower-rover.zone.v1"), (.str "zone_id", .str "ne"),
    (.str "name", .str "North East Lawn"), (.str "home", gridPoint 0 0),
    (.str "rally_point", .dict [(.str "lat", .int 0), (.str "lon", .int 0)]),
    (.str "boundary", .list [gridPoint 0 0, gridPoint 5 0, gridPoint 5 12, gridPoint 0 12]),
    (.str "coverage", .dict [(.str "headland_passes", .int headlandPasses)])])

def openZone (headlandPasses : ℤ) : ZoneConfig where
  schema := "mower-rover.zone.v1"
  zoneId := "ne"
  home := gridLatLon 0 0
  rallyPoint := gridLatLon 0 0
  boundary := [gridLatLon 0 0, gridLatLon 5 0, gridLatLon 5 12, gridLatLon 0 12]
  coverage := { headlandPasses := headlandPasses }

/-- Some 111 km to a degree. -/
def flatProjector (_ : List LatLon) : Projector ℚ where
  toPlanar p := (metres p.lon, metres p.lat)
  toGeodetic p := ⟨.fin (p.2 / (557056 / 5)), .fin (p.1 / (557056 / 5))⟩
where
  metres : PyFloat → ℚ
    | .fin q => 557056 / 5 * q
    | _ => 0

theorem defaultWidth_pos : (0 : ℚ) < 54 * (127 / 5000) := by norm_num

theorem defaultOverlap_nonneg : (0 : ℚ) ≤ 10 := by norm_num

theorem defaultOverlap_le : (10 : ℚ) ≤ 50 := by norm_num

/-- The default width and overlap. -/
def defaultSwath : Swath ℚ :=
  ⟨54 * (127 / 5000), 10, defaultWidth_pos, defaultOverlap_nonneg, defaultOverlap_le⟩

theorem openZone_swath (headlandPasses : ℤ) :
    swathOf (openZone headlandPasses).coverage = some defaultSwath := by
  exact dif_pos ⟨defaultWidth_pos, defaultOverlap_nonneg, defaultOverlap_le⟩

theorem fillPlanned_openZone : FillPlanned boxes flatProjector (openZone 1) defaultSwath 0 := by
  apply (fillPlanned_iff (openZone_swath 1) rfl (by decide +kernel) (by decide +kernel)).mpr
  refine ⟨by decide, 0, by decide, ?_, by decide +kernel⟩
  intro earlier hearlier
  obtain rfl : earlier = 0 := by omega
  exact ⟨by decide +kernel, by decide +kernel⟩

/-- Without headland passes nothing is planned for a lawn of more than forty square metres. -/
theorem openZone_not_filled :
    loadZoneConfig ⟨fun _ => .ok true⟩ "zones/ne.yaml" (openFile 0) = .ok (openZone 0) ∧
    swathOf (openZone 0).coverage = some defaultSwath ∧
    boxes.isEmpty (fillOf boxes flatProjector (openZone 0) defaultSwath) = false ∧
    40 < boxes.area (fillOf boxes flatProjector (openZone 0) defaultSwath) ∧
    generateWaypoints boxes flatProjector (openZone 0) = .ok [] ∧
    ¬ FillPlanned boxes flatProjector (openZone 0) defaultSwath 0 := by
  have hnone : generateWaypoints boxes flatProjector (openZone 0) = .ok [] := by decide +kernel
  refine ⟨?_, openZone_swath 0, by decide +kernel, by decide +kernel, hnone,
    fun h => h.not_empty hnone⟩
  change coerce _ _ = _
  decide +kernel

end MowerRover.Zone
