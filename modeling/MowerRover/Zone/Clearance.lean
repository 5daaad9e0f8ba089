import MowerRover.Zone.ExactShapely

/-!
# Clearance from exclusion zones

Every exclusion zone has a `buffer_m`, and the planner takes half a metre off
around each of them. The waypoints keep every buffer where the half metre leaves
no part of the lawn that is closer than that.
-/

namespace MowerRover.Zone

open Set Numeric

/-- `d >= buffer_m`. -/
def Clears (bufferM : PyFloat) (d : ℝ) : Prop :=
  match bufferM with
  | .fin buffer => buffer ≤ d
  | .inf negative => negative = true
  | .nan => False

section Clearance

variable {geometry : Geometry ℝ} (exact : ExactShapely geometry)
  (projector : List LatLon → Projector ℝ) (zone : ZoneConfig)

/-- A point keeps the buffer of every exclusion zone. -/
def ExactShapely.KeepsClear (p : ℂ) : Prop :=
  ∀ exclusion ∈ zone.exclusionZones, ∀ q ∈ exact.obstacle projector zone exclusion,
    Clears exclusion.bufferM (dist p q)

variable {exact projector zone}

theorem isClosed_clears (bufferM : PyFloat) (q : ℂ) : IsClosed {p | Clears bufferM (dist p q)} := by
  cases bufferM with
  | fin buffer => exact isClosed_le continuous_const (continuous_id.dist continuous_const)
  | inf negative => exact isClosed_const
  | nan => exact isClosed_const

theorem ExactShapely.KeepsClear.closure {s : Set ℂ}
    (h : ∀ p ∈ s, exact.KeepsClear projector zone p) :
    ∀ p ∈ closure s, exact.KeepsClear projector zone p := by
  intro p hp exclusion hexclusion q hq
  have hsub : s ⊆ {p | Clears exclusion.bufferM (dist p q)} :=
    fun p hp => h p hp exclusion hexclusion q hq
  exact closure_minimal hsub (isClosed_clears _ q) hp

/-- The buffers of up to half a metre. -/
theorem ExactShapely.keepsClear_of_le (h : ∀ exclusion ∈ zone.exclusionZones,
    exclusion.bufferM.le (.fin (1 / 2)) = true) :
    ∀ p ∈ exact.mowable projector zone, exact.KeepsClear projector zone p := by
  intro p hp exclusion hexclusion q hq
  have hdist := (ExactShapely.mem_mowable.mp hp).2 exclusion hexclusion q hq
  have hle := h exclusion hexclusion
  unfold Clears
  cases hbuffer : exclusion.bufferM with
  | fin buffer =>
    rw [hbuffer] at hle
    have hle : buffer ≤ 1 / 2 := by simpa [PyFloat.le] using hle
    have hcast : (buffer : ℝ) ≤ (1 / 2 : ℚ) := Rat.cast_le.mpr hle
    push_cast at hcast
    exact hcast.trans hdist.le
  | inf negative =>
    rw [hbuffer] at hle
    simpa [PyFloat.le] using hle
  | nan =>
    rw [hbuffer] at hle
    simp [PyFloat.le] at hle

/-- The waypoints keep every buffer when what is left of the lawn does, and when there are none. -/
theorem planarPlan_keepsClear {plan : List (ℝ × ℝ)}
    (h : planarPlan geometry projector zone = some plan)
    (hkeeps : zone.coverage.headlandPasses ≤ 0 ∨
      ∀ p ∈ exact.mowable projector zone, exact.KeepsClear projector zone p) :
    ∀ w ∈ plan, exact.KeepsClear projector zone (plane w) := by
  rcases hkeeps with hpasses | hkeeps
  · rw [planarPlan_eq_nil h hpasses]
    simp
  · intro w hw
    exact ExactShapely.KeepsClear.closure hkeeps _ (ExactShapely.planarPlan_mem h w hw)

end Clearance

/-- Degrees on a grid of some 0.85 m. -/
def gridDegrees (k : ℤ) : PyFloat := .fin (k / 131072)

/-- A point so many steps to the east and to the north. -/
def gridPoint (east north : ℤ) : Yaml :=
  .list [.float (gridDegrees north), .float (gridDegrees east)]

/-- A lawn of five steps by twelve, with an exclusion zone from the second step on that leaves it
at both ends. -/
def stripFile (right : ℤ) (bufferM : ℚ) : YamlFile :=
  .document (.dict [
    (.str "schema", .str "mower-rover.zone.v1"), (.str "zone_id", .str "ne"),
    (.str "name", .str "North East Lawn"), (.str "home", gridPoint 0 0),
    (.str "rally_point", .dict [(.str "lat", .int 0), (.str "lon", .int 0)]),
    (.str "boundary", .list [gridPoint 0 0, gridPoint 5 0, gridPoint 5 12, gridPoint 0 12]),
    (.str "exclusion_zones", .list [.dict [
      (.str "name", .str "Hedge"), (.str "buffer_m", .float (.fin bufferM)),
      (.str "polygon", .list [gridPoint 2 (-2), gridPoint right (-2), gridPoint right 14,
        gridPoint 2 14])]]),
    (.str "coverage", .dict [(.str "headland_passes", .int 1)])])

def gridLatLon (east north : ℤ) : LatLon := ⟨gridDegrees north, gridDegrees east⟩

def hedge (right : ℤ) (bufferM : ℚ) : ExclusionZone where
  bufferM := .fin bufferM
  polygon := [gridLatLon 2 (-2), gridLatLon right (-2), gridLatLon right 14, gridLatLon 2 14]

def stripZone (right : ℤ) (bufferM : ℚ) : ZoneConfig where
  schema := "mower-rover.zone.v1"
  zoneId := "ne"
  home := gridLatLon 0 0
  rallyPoint := gridLatLon 0 0
  boundary := [gridLatLon 0 0, gridLatLon 5 0, gridLatLon 5 12, gridLatLon 0 12]
  exclusionZones := [hedge right bufferM]
  coverage := { headlandPasses := 1 }

theorem stripFile_loads :
    loadZoneConfig ⟨fun _ => .ok true⟩ "zones/ne.yaml" (stripFile 3 1) = .ok (stripZone 3 1) := by
  change coerce _ _ = _
  decide +kernel

/-- A degree has some 111 km. -/
noncomputable def metresPerDegree : ℝ := 557056 / 5

noncomputable def gridProjector (_ : List LatLon) : Projector ℝ where
  toPlanar p := (metres p.lon, metres p.lat)
  toGeodetic p := ⟨.fin (degrees p.2), .fin (degrees p.1)⟩
where
  metres : PyFloat → ℝ
    | .fin q => metresPerDegree * q
    | _ => 0
  degrees (x : ℝ) : ℚ := Function.invFun (fun q : ℚ => metresPerDegree * q) x

theorem gridProjector_toPlanar (points : List LatLon) (east north : ℤ) :
    (gridProjector points).toPlanar (gridLatLon east north) =
      (17 / 20 * (east : ℝ), 17 / 20 * (north : ℝ)) := by
  apply Prod.ext
  · simp only [gridProjector, gridProjector.metres, gridLatLon, gridDegrees, metresPerDegree]
    push_cast
    ring
  · simp only [gridProjector, gridProjector.metres, gridLatLon, gridDegrees, metresPerDegree]
    push_cast
    ring

/-- The lawn up to half a metre west of the strip, and from somewhere east of it. -/
def stripArea (east : ℝ) : Set ℂ := (Ico 0 (6 / 5) ∪ Ioc east (17 / 4)) ×ℂ Icc 0 (51 / 5)

section Strip

variable {parts : Set ℂ → Parts ℝ}
  {hparts : ∀ s, ∀ ring ∈ (parts s).rings, ∀ p ∈ ring, plane p ∈ closure s}
  {right : ℤ} {bufferM : ℚ}

theorem stripZone_obstacle (hright : 2 ≤ right) : (planeGeometry_exact hparts).obstacle
    gridProjector
    (stripZone right bufferM) (hedge right bufferM) =
      Icc (17 / 10) (17 / 20 * (right : ℝ)) ×ℂ Icc (-17 / 10) (119 / 10) := by
  have hcast : (2 : ℝ) ≤ right := by exact_mod_cast hright
  have hpolygon : (hedge right bufferM).polygon.map
      (gridProjector (stripZone right bufferM).boundary).toPlanar =
        [(17 / 10, -17 / 10), (17 / 20 * (right : ℝ), -17 / 10),
          (17 / 20 * (right : ℝ), 119 / 10), (17 / 10, 119 / 10)] := by
    simp only [hedge, List.map_cons, List.map_nil, gridProjector_toPlanar]
    norm_num
  show (planeGeometry parts).polygon _ = _
  rw [hpolygon, planeGeometry_rectangle parts (by linarith) (by norm_num)]

theorem stripZone_mowable (hright : 2 ≤ right) {east : ℝ}
    (heast : 17 / 20 * (right : ℝ) + 1 / 2 = east) :
    (planeGeometry_exact hparts).mowable gridProjector (stripZone right bufferM) =
      stripArea east := by
  subst heast
  have hcast : (2 : ℝ) ≤ right := by exact_mod_cast hright
  have hboundary : (stripZone right bufferM).boundary.map
      (gridProjector (stripZone right bufferM).boundary).toPlanar =
        [(0, 0), (17 / 4, 0), (17 / 4, 51 / 5), (0, 51 / 5)] := by
    simp only [stripZone, List.map_cons, List.map_nil, gridProjector_toPlanar]
    norm_num
  have hlawn : (planeGeometry_exact hparts).region ((planeGeometry parts).polygon
      ((stripZone right bufferM).boundary.map
        (gridProjector (stripZone right bufferM).boundary).toPlanar)) =
          Icc 0 (17 / 4) ×ℂ Icc 0 (51 / 5) := by
    rw [hboundary]
    exact planeGeometry_rectangle parts (by norm_num) (by norm_num)
  ext p
  rw [ExactShapely.mem_mowable]
  have hexclusions : (stripZone right bufferM).exclusionZones = [hedge right bufferM] := rfl
  rw [hexclusions, List.forall_mem_singleton, stripZone_obstacle hright]
  rw [hlawn, stripArea, Complex.mem_reProdIm, Complex.mem_reProdIm]
  constructor
  · rintro ⟨⟨hre, him⟩, hdist⟩
    refine ⟨?_, him⟩
    rw [forall_lt_dist_rectangle (by norm_num) (by linarith)
      ⟨by linarith [him.1], by linarith [him.2]⟩] at hdist
    rcases hdist with hleft | hright
    · exact .inl ⟨hre.1, by linarith⟩
    · exact .inr ⟨hright, hre.2⟩
  · rintro ⟨hre, him⟩
    rw [forall_lt_dist_rectangle (by norm_num) (by linarith)
      ⟨by linarith [him.1], by linarith [him.2]⟩]
    rcases hre with hleft | hright
    · exact ⟨⟨⟨hleft.1, by linarith [hleft.2]⟩, him⟩, .inl (by linarith [hleft.2])⟩
    · exact ⟨⟨⟨by linarith [hright.1], hright.2⟩, him⟩, .inr hright.1⟩

/-- The headland pass of the lawn comes first. -/
theorem stripZone_plan (hparts : ∀ s, ∀ ring ∈ (parts s).rings, ∀ p ∈ ring, plane p ∈ closure s)
    (bufferM : ℚ) (hright : 2 ≤ right) {east : ℝ} (heast : 17 / 20 * (right : ℝ) + 1 / 2 = east)
    (harea : 1 ≤ (parts (stripArea east)).area) :
    ∃ rest, planarPlan (planeGeometry parts) gridProjector (stripZone right bufferM) =
      some ((parts (stripArea east)).rings.flatten ++ rest) := by
  have hwidth : (0 : ℝ) < (54 : ℚ) * (127 / 5000) ∧ (0 : ℝ) ≤ (10 : ℚ) ∧ ((10 : ℚ) : ℝ) ≤ 50 := by
    norm_num
  have hswath : swathOf (stripZone right bufferM).coverage =
      some (⟨_, _, hwidth.1, hwidth.2.1, hwidth.2.2⟩ : Swath ℝ) := dif_pos hwidth
  have hheadland : headlandArea (planeGeometry parts)
      ((stripZone right bufferM).boundary.map
        (gridProjector (stripZone right bufferM).boundary).toPlanar)
      ((stripZone right bufferM).exclusionZones.map fun exclusion =>
        exclusion.polygon.map (gridProjector (stripZone right bufferM).boundary).toPlanar) =
          stripArea east := by
    exact (planeGeometry_headlandArea hparts _ _).trans (stripZone_mowable hright heast)
  have hne : stripArea east ≠ ∅ := by
    apply Nonempty.ne_empty
    refine ⟨0, .inl ?_, ?_⟩ <;> norm_num
  have hempty : (planeGeometry parts).isEmpty (stripArea east) = false := decide_eq_false hne
  obtain ⟨rest, hrest⟩ := planarWaypoints_eq_append
    (⟨_, _, hwidth.1, hwidth.2.1, hwidth.2.2⟩ : Swath ℝ) 0 one_pos (by rw [hheadland]; exact hempty)
    (by rw [hheadland]; exact harea)
  refine ⟨rest, ?_⟩
  rw [hheadland] at hrest
  have hangle : (stripZone right bufferM).coverage.angleDeg = .fin 0 := rfl
  have hpasses : (stripZone right bufferM).coverage.headlandPasses = 1 := rfl
  unfold planarPlan
  rw [hswath, hangle]
  dsimp only
  rw [hpasses, Rat.cast_zero, hrest]
  rfl

end Strip

/-- The one shape of which the vertices are known. -/
noncomputable def partsOf (s : Set ℂ) (parts : Parts ℝ) (t : Set ℂ) : Parts ℝ :=
  @ite _ (t = s) (Classical.propDecidable _) parts .other

theorem partsOf_self (s : Set ℂ) (parts : Parts ℝ) : partsOf s parts s = parts := if_pos rfl

theorem partsOf_mem {s : Set ℂ} {parts : Parts ℝ}
    (h : ∀ ring ∈ parts.rings, ∀ p ∈ ring, plane p ∈ closure s) :
    ∀ t, ∀ ring ∈ (partsOf s parts t).rings, ∀ p ∈ ring, plane p ∈ closure t := by
  intro t
  unfold partsOf
  split_ifs with heq
  · rw [heq]
    exact h
  · simp [Parts.rings]

noncomputable def westRing : List (ℝ × ℝ) := [(0, 0), (6 / 5, 0), (6 / 5, 51 / 5), (0, 51 / 5)]

noncomputable def eastRing : List (ℝ × ℝ) :=
  [(61 / 20, 0), (17 / 4, 0), (17 / 4, 51 / 5), (61 / 20, 51 / 5)]

noncomputable def pieceOf (ring : List (ℝ × ℝ)) : PolygonPart ℝ := ⟨ring, [], 306 / 25⟩

/-- What the strip leaves when the lawn is wider than it. -/
noncomputable def bothSides : Parts ℝ := .geoms [some (pieceOf westRing), some (pieceOf eastRing)]

theorem bothSides_rings : bothSides.rings = [westRing, eastRing] := by
  norm_num [bothSides, pieceOf, Parts.rings, PolygonPart.rings, westRing, eastRing]

theorem closure_stripArea_both : closure (stripArea (61 / 20)) =
    (Icc 0 (6 / 5) ∪ Icc (61 / 20) (17 / 4)) ×ℂ Icc 0 (51 / 5) := by
  rw [stripArea, Complex.closure_reProdIm, closure_union, closure_Ico (by norm_num),
    closure_Ioc (by norm_num), closure_Icc]

theorem bothSides_mem : ∀ ring ∈ bothSides.rings, ∀ p ∈ ring,
    plane p ∈ closure (stripArea (61 / 20)) := by
  rw [bothSides_rings, closure_stripArea_both]
  intro ring hring p hp
  have hcases : ring = westRing ∨ ring = eastRing := by simpa using hring
  rcases hcases with rfl | rfl
  · have hwest := corners_mem (by norm_num) (by norm_num) p hp
    exact ⟨.inl hwest.1, hwest.2⟩
  · have heast := corners_mem (by norm_num) (by norm_num) p hp
    exact ⟨.inr heast.1, heast.2⟩

/-- The plane in which the strip of one step leaves a piece of lawn on both sides. -/
noncomputable def stripGeometry : Geometry ℝ :=
    planeGeometry (partsOf (stripArea (61 / 20)) bothSides)

noncomputable def stripGeometry_exact : ExactShapely stripGeometry :=
  planeGeometry_exact (partsOf_mem bothSides_mem)

theorem stripGeometry_obstacle (bufferM : ℚ) :
    stripGeometry_exact.obstacle gridProjector (stripZone 3 bufferM) (hedge 3 bufferM) =
      Icc (17 / 10) (51 / 20) ×ℂ Icc (-17 / 10) (119 / 10) := by
  have hright : 17 / 20 * ((3 : ℤ) : ℝ) = 51 / 20 := by norm_num
  rw [← hright]
  exact stripZone_obstacle (by norm_num)

theorem stripGeometry_plan (bufferM : ℚ) : ∃ rest,
    planarPlan stripGeometry gridProjector (stripZone 3 bufferM) =
      some (westRing ++ eastRing ++ rest) := by
  have harea : 1 ≤ (partsOf (stripArea (61 / 20)) bothSides (stripArea (61 / 20))).area := by
    rw [partsOf_self]
    norm_num [bothSides, pieceOf, Parts.area]
  obtain ⟨rest, hrest⟩ := stripZone_plan (partsOf_mem bothSides_mem) bufferM (by norm_num)
    (by norm_num : 17 / 20 * ((3 : ℤ) : ℝ) + 1 / 2 = 61 / 20) harea
  rw [partsOf_self, bothSides_rings] at hrest
  exact ⟨rest, hrest⟩

theorem planarPlan_keepsClear_quarter : ∃ rest,
    planarPlan stripGeometry gridProjector (stripZone 3 (1 / 4)) =
      some (westRing ++ eastRing ++ rest) ∧
    ∀ w ∈ westRing ++ eastRing ++ rest,
      stripGeometry_exact.KeepsClear gridProjector (stripZone 3 (1 / 4)) (plane w) := by
  obtain ⟨rest, hrest⟩ := stripGeometry_plan (1 / 4)
  refine ⟨rest, hrest, planarPlan_keepsClear hrest (.inr ?_)⟩
  apply ExactShapely.keepsClear_of_le
  decide +kernel

/-- A hedge with a buffer of one metre is passed at half a metre. -/
theorem hedge_passed_closely :
    loadZoneConfig ⟨fun _ => .ok true⟩ "zones/ne.yaml" (stripFile 3 1) = .ok (stripZone 3 1) ∧
    ∃ plan, planarPlan stripGeometry gridProjector (stripZone 3 1) = some plan ∧
      (6 / 5, 0) ∈ plan ∧
      ¬ stripGeometry_exact.KeepsClear gridProjector (stripZone 3 1) (plane (6 / 5, 0)) := by
  obtain ⟨rest, hrest⟩ := stripGeometry_plan 1
  refine ⟨stripFile_loads, _, hrest, by simp [westRing], fun hkeeps => ?_⟩
  have hq : plane (17 / 10, 0) ∈
      stripGeometry_exact.obstacle gridProjector (stripZone 3 1) (hedge 3 1) := by
    rw [stripGeometry_obstacle]
    refine ⟨⟨?_, ?_⟩, ?_, ?_⟩ <;> norm_num [plane]
  have hclears := hkeeps (hedge 3 1) List.mem_cons_self _ hq
  have hdist : dist (plane (6 / 5, 0)) (plane (17 / 10, 0)) = 1 / 2 := by
    have hsame : dist (plane (6 / 5, 0)) (plane (17 / 10, 0)) = dist (6 / 5 : ℝ) (17 / 10) :=
      Complex.dist_of_im_eq rfl
    rw [hsame, Real.dist_eq]
    norm_num
  rw [hdist] at hclears
  norm_num [Clears, hedge] at hclears

end MowerRover.Zone
