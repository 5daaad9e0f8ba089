import MowerRover.Zone.Planner

/-!
# Shapes as sets of points

Shapely as it would be without rounding: every shape has a region of the plane,
buffers are neighbourhoods, differences are those of sets, and the coordinates
that come back lie in the region or at its edge. All waypoints of a plan are
then in the closure of one set, the part of the lawn that is farther than half
a metre from every exclusion zone.
-/

namespace MowerRover.Zone

open Set Real

def plane (p : ℝ × ℝ) : ℂ := ⟨p.1, p.2⟩

/-- A point turned counterclockwise by so many degrees around another. -/
noncomputable def turned (origin : ℂ) (angleDeg : ℝ) (z : ℂ) : ℂ :=
  (⟨cos (angleDeg * π / 180), sin (angleDeg * π / 180)⟩ : ℂ) * (z - origin) + origin

theorem turned_turned_neg (origin : ℂ) (angleDeg : ℝ) (z : ℂ) :
    turned origin angleDeg (turned origin (-angleDeg) z) = z := by
  have hunit : (⟨cos (angleDeg * π / 180), sin (angleDeg * π / 180)⟩ : ℂ) *
      ⟨cos (-angleDeg * π / 180), sin (-angleDeg * π / 180)⟩ = 1 := by
    rw [neg_mul, neg_div, cos_neg, sin_neg]
    apply Complex.ext
    · simp only [Complex.mul_re, Complex.one_re]
      linarith [cos_sq_add_sin_sq (angleDeg * π / 180)]
    · simp only [Complex.mul_im, Complex.one_im]
      ring
  rw [turned, turned, add_sub_cancel_right, ← mul_assoc, hunit, one_mul, sub_add_cancel]

theorem turned_zero (origin z : ℂ) : turned origin 0 z = z := by
  have hone : (⟨1, 0⟩ : ℂ) = 1 := rfl
  rw [turned, zero_mul, zero_div, cos_zero, sin_zero, hone, one_mul, sub_add_cancel]

theorem continuous_turned (origin : ℂ) (angleDeg : ℝ) : Continuous (turned origin angleDeg) :=
  (continuous_const.mul (continuous_id.sub continuous_const)).add continuous_const

def Clipped.coords {K : Type} : Clipped K → List (K × K)
  | .lineString coords => coords
  | .multiLineString segments => segments.flatten
  | .empty | .other => []

section Sweeps

variable {K : Type} [Field K] {geometry : Geometry K} {rotated : geometry.Shape}
  {bounds : Bounds K} {leftToRight : Bool} {lines : List K} {y : K} {p : K × K}

/-- A sweep has no other coordinates than the line has that was cut. -/
theorem mem_sweepCoords (h : p ∈ sweepCoords geometry rotated bounds leftToRight y) :
    p ∈ (geometry.intersection rotated
      (if leftToRight then (bounds.minx - 10, y) else (bounds.maxx + 10, y))
      (if leftToRight then (bounds.maxx + 10, y) else (bounds.minx - 10, y))).coords := by
  unfold sweepCoords at h
  dsimp only at h
  cases hclip : geometry.intersection rotated
      (if leftToRight then (bounds.minx - 10, y) else (bounds.maxx + 10, y))
      (if leftToRight then (bounds.maxx + 10, y) else (bounds.minx - 10, y)) with
  | lineString coords =>
    rw [hclip] at h
    exact h
  | multiLineString segments =>
    rw [hclip] at h
    cases leftToRight with
    | true => exact h
    | false =>
      -- the segments and their coordinates are only reversed
      obtain ⟨l, hl, hpl⟩ : ∃ l : List (K × K), l.reverse ∈ segments ∧ p ∈ l := by simpa using h
      apply List.mem_flatten.mpr
      exact ⟨l.reverse, hl, List.mem_reverse.mpr hpl⟩
  | empty =>
    rw [hclip] at h
    simp at h
  | other =>
    rw [hclip] at h
    simp at h

theorem mem_sweeps (h : p ∈ sweeps geometry rotated bounds leftToRight lines) :
    ∃ start stop, p ∈ (geometry.intersection rotated start stop).coords := by
  induction lines generalizing leftToRight with
  | nil => simp [sweeps] at h
  | cons y lines ih =>
    rw [sweeps, List.mem_append] at h
    rcases h with h | h
    · exact ⟨_, _, mem_sweepCoords h⟩
    · exact ih h

end Sweeps

structure ExactShapely (geometry : Geometry ℝ) where
  region : geometry.Shape → Set ℂ
  /-- the points within a distance -/
  region_buffer : ∀ s r, 0 ≤ r → region (geometry.buffer s r) = {p | ∃ q ∈ region s, dist p q ≤ r}
  /-- the points that keep a distance from the outside -/
  region_inset : ∀ s d, 0 < d →
    region (geometry.buffer s (-d)) = {p | ∀ q, dist p q ≤ d → q ∈ region s}
  region_difference : ∀ a b, region (geometry.difference a b) = region a \ region b
  region_rotate : ∀ s angleDeg origin,
    region (geometry.rotate s angleDeg origin) = turned (plane origin) angleDeg '' region s
  rings_mem : ∀ s, ∀ ring ∈ (geometry.parts s).rings, ∀ p ∈ ring, plane p ∈ closure (region s)
  intersection_mem : ∀ s a b, ∀ p ∈ (geometry.intersection s a b).coords,
    plane p ∈ closure (region s)
  cosDegrees_eq : ∀ angleDeg, geometry.cosDegrees angleDeg = cos (angleDeg * π / 180)
  sinDegrees_eq : ∀ angleDeg, geometry.sinDegrees angleDeg = sin (angleDeg * π / 180)

section Lawn

variable {geometry : Geometry ℝ} (exact : ExactShapely geometry)

/-- The part of the lawn that is farther than half a metre from every exclusion zone. -/
def ExactShapely.lawn (boundaryXY : List (ℝ × ℝ)) (exclusionsXY : List (List (ℝ × ℝ))) : Set ℂ :=
  {p ∈ exact.region (geometry.polygon boundaryXY) |
    ∀ exclXY ∈ exclusionsXY, ∀ q ∈ exact.region (geometry.polygon exclXY), 1 / (2 : ℕ) < dist p q}

namespace ExactShapely

variable {exact} {boundaryXY : List (ℝ × ℝ)} {exclusionsXY : List (List (ℝ × ℝ))}

theorem region_fixed (s : geometry.Shape) : exact.region (fixed geometry s) = exact.region s := by
  unfold fixed
  split_ifs
  · rfl
  · rw [exact.region_buffer s 0 le_rfl]
    simp

theorem region_foldl {f : List (ℝ × ℝ) → geometry.Shape}
    (hf : ∀ exclXY, exact.region (f exclXY) = exact.region (geometry.polygon exclXY))
    (s : geometry.Shape) :
    exact.region (exclusionsXY.foldl (fun mowable exclXY =>
        geometry.difference mowable (geometry.buffer (f exclXY) (1 / (2 : ℕ)))) s) =
      {p ∈ exact.region s |
        ∀ exclXY ∈ exclusionsXY, ∀ q ∈ exact.region (geometry.polygon exclXY),
          1 / (2 : ℕ) < dist p q} := by
  induction exclusionsXY generalizing s with
  | nil => simp
  | cons exclXY exclusionsXY ih =>
    rw [List.foldl_cons, ih, exact.region_difference, exact.region_buffer _ _ (by norm_num), hf]
    ext p
    simp only [mem_ofPred_eq, mem_sdiff, not_exists, not_and, not_le, List.forall_mem_cons]
    tauto

theorem region_headlandArea (exact : ExactShapely geometry) :
    exact.region (headlandArea geometry boundaryXY exclusionsXY) =
      exact.lawn boundaryXY exclusionsXY := by
  rw [headlandArea, region_foldl (f := fun exclXY => fixed geometry (geometry.polygon exclXY))
    (fun exclXY => region_fixed _), region_fixed]
  rfl

theorem region_fillArea : exact.region (fillArea geometry boundaryXY exclusionsXY) =
    exact.lawn boundaryXY exclusionsXY :=
  region_foldl (fun _ => rfl) _

theorem region_inset_subset (exact : ExactShapely geometry) (s : geometry.Shape) {d : ℝ}
    (hd : 0 < d) :
    exact.region (geometry.buffer s (-d)) ⊆ exact.region s := by
  rw [exact.region_inset s d hd]
  exact fun p hp => hp p (by simpa using hd.le)

theorem headlandRounds_mem {d : ℝ} (hd : 0 < d) {rounds : ℕ} {s : geometry.Shape} {L : Set ℂ}
    (hs : exact.region s ⊆ L) : ∀ ring ∈ headlandRounds geometry d rounds s, ∀ p ∈ ring,
      plane p ∈ closure L := by
  induction rounds generalizing s with
  | zero => simp [headlandRounds]
  | succ rounds ih =>
    intro ring hring p hp
    rw [headlandRounds] at hring
    split_ifs at hring
    · simp at hring
    · rcases List.mem_append.mp hring with hring | hring
      · exact closure_mono hs (exact.rings_mem s ring hring p hp)
      · split_ifs at hring
        · simp at hring
        · exact ih ((region_inset_subset exact s hd).trans hs) ring hring p hp

theorem innermost_subset {d : ℝ} (hd : 0 < d) (passes : ℕ) (s : geometry.Shape) :
    exact.region (innermost geometry d passes s) ⊆ exact.region s := by
  induction passes generalizing s with
  | zero => exact Subset.rfl
  | succ passes ih =>
    have hinset := region_inset_subset exact s hd
    rw [innermost]
    split_ifs
    · exact hinset
    · exact (ih _).trans hinset

theorem sweeps_mem (exact : ExactShapely geometry) {rotated : geometry.Shape} {bounds : Bounds ℝ}
    (leftToRight : Bool) (lines : List ℝ) : ∀ p ∈ sweeps geometry rotated bounds leftToRight lines,
      plane p ∈ closure (exact.region rotated) := by
  intro p hp
  obtain ⟨start, stop, hclip⟩ := mem_sweeps hp
  exact exact.intersection_mem rotated start stop p hclip

theorem plane_rotateBack (exact : ExactShapely geometry) (origin : ℝ × ℝ) (angleDeg : ℝ)
    (p : ℝ × ℝ) :
    plane (rotateBack geometry origin angleDeg p) = turned (plane origin) angleDeg (plane p) := by
  apply Complex.ext
  · simp only [plane, rotateBack, turned, exact.cosDegrees_eq, exact.sinDegrees_eq, Complex.add_re,
      Complex.mul_re, Complex.sub_re, Complex.sub_im]
    ring
  · simp only [plane, rotateBack, turned, exact.cosDegrees_eq, exact.sinDegrees_eq, Complex.add_im,
      Complex.mul_im, Complex.sub_re, Complex.sub_im]
    ring

/-- The fill is turned back to where the area is. -/
theorem generateBoustrophedonFill_mem (exact : ExactShapely geometry) {mowable : geometry.Shape}
    {swath : Swath ℝ} {angleDeg : ℝ} :
    ∀ p ∈ generateBoustrophedonFill geometry mowable swath angleDeg,
      plane p ∈ closure (exact.region mowable) := by
  intro p hp
  have hrotated : exact.region (rotatedPolygon geometry mowable angleDeg) =
      turned (plane ((geometry.bounds mowable).minx, (geometry.bounds mowable).miny)) (-angleDeg) ''
        exact.region mowable := exact.region_rotate _ _ _
  rw [generateBoustrophedonFill] at hp
  split_ifs at hp with hsmall hangle
  · simp at hp
  · have hmem := sweeps_mem exact _ _ p hp
    rw [hrotated, hangle, neg_zero] at hmem
    simpa [turned_zero] using hmem
  · obtain ⟨q, hq, rfl⟩ := List.mem_map.mp hp
    have hmem := sweeps_mem exact _ _ q hq
    rw [hrotated] at hmem
    rw [plane_rotateBack exact]
    apply map_mem_closure (continuous_turned _ _) hmem
    rintro _ ⟨z, hz, rfl⟩
    rw [turned_turned_neg]
    exact hz

theorem planarWaypoints_mem {swath : Swath ℝ} {angleDeg : ℝ} {headlandPasses : ℤ} :
    ∀ p ∈ planarWaypoints geometry boundaryXY exclusionsXY swath angleDeg headlandPasses,
      plane p ∈ closure (exact.lawn boundaryXY exclusionsXY) := by
  intro p hp
  rw [planarWaypoints] at hp
  rcases List.mem_append.mp hp with hp | hp
  · obtain ⟨ring, hring, hp⟩ := List.mem_flatten.mp hp
    rw [generateHeadlandPasses] at hring
    split_ifs at hring
    · simp at hring
    · dsimp only at hring
      split_ifs at hring
      · simp at hring
      · exact headlandRounds_mem swath.spacing_pos (region_headlandArea exact).le ring hring p hp
  · split_ifs at hp
    · simp at hp
    · apply closure_mono _ (generateBoustrophedonFill_mem exact p hp)
      exact (innermost_subset swath.spacing_pos _ _).trans region_fillArea.le

end ExactShapely

section Zone

variable (projector : List LatLon → Projector ℝ) (zone : ZoneConfig)

/-- The points of an exclusion zone. -/
def ExactShapely.obstacle (exclusion : ExclusionZone) : Set ℂ :=
  exact.region (geometry.polygon (exclusion.polygon.map (projector zone.boundary).toPlanar))

/-- What the planner leaves of the lawn. -/
def ExactShapely.mowable : Set ℂ :=
  exact.lawn (zone.boundary.map (projector zone.boundary).toPlanar)
    (zone.exclusionZones.map fun exclusion =>
      exclusion.polygon.map (projector zone.boundary).toPlanar)

variable {exact projector zone}

theorem ExactShapely.mem_mowable {p : ℂ} : p ∈ exact.mowable projector zone ↔
    p ∈ exact.region (geometry.polygon (zone.boundary.map (projector zone.boundary).toPlanar)) ∧
      ∀ exclusion ∈ zone.exclusionZones, ∀ q ∈ exact.obstacle projector zone exclusion,
        1 / 2 < dist p q := by
  rw [mowable, lawn, mem_ofPred_eq, List.forall_mem_map, Nat.cast_ofNat]
  rfl

theorem ExactShapely.planarPlan_mem {plan : List (ℝ × ℝ)}
    (h : planarPlan geometry projector zone = some plan) :
    ∀ p ∈ plan, plane p ∈ closure (exact.mowable projector zone) := by
  unfold planarPlan at h
  dsimp only at h
  split at h
  · obtain rfl := Option.some.inj h
    exact planarWaypoints_mem
  · split_ifs at h
    obtain rfl := Option.some.inj h
    simp

end Zone

end Lawn

/-- The total area. -/
def Parts.area {K : Type} [Field K] : Parts K → K
  | .polygon part => part.area
  | .geoms parts => (parts.reduceOption.map PolygonPart.area).sum
  | .other => 0

/-- The geometry of convex polygons and what is cut out of them, as far as the vertices are known
and no sweep line is drawn. -/
noncomputable def planeGeometry (parts : Set ℂ → Parts ℝ) : Geometry ℝ where
  Shape := Set ℂ
  polygon coords := convexHull ℝ (plane '' {p | p ∈ coords})
  isValid _ := true
  isEmpty s := @decide (s = ∅) (Classical.propDecidable _)
  area s := (parts s).area
  buffer s r := if 0 ≤ r then {p | ∃ q ∈ s, dist p q ≤ r} else {p | ∀ q, dist p q ≤ -r → q ∈ s}
  difference a b := a \ b
  parts := parts
  bounds s := ⟨sInf (Complex.re '' s), sInf (Complex.im '' s), sSup (Complex.re '' s),
    sSup (Complex.im '' s)⟩
  rotate s angleDeg origin := turned (plane origin) angleDeg '' s
  intersection _ _ _ := .empty
  cosDegrees angleDeg := cos (angleDeg * π / 180)
  sinDegrees angleDeg := sin (angleDeg * π / 180)

def planeGeometry_exact {parts : Set ℂ → Parts ℝ}
    (hparts : ∀ s, ∀ ring ∈ (parts s).rings, ∀ p ∈ ring, plane p ∈ closure s) :
    ExactShapely (planeGeometry parts) where
  region s := s
  region_buffer _ _ hr := if_pos hr
  region_inset _ d hd := by
    have hneg : ¬ 0 ≤ -d := by linarith
    simp only [planeGeometry, if_neg hneg, neg_neg]
  region_difference _ _ := rfl
  region_rotate _ _ _ := rfl
  rings_mem := hparts
  intersection_mem _ _ _ _ hp := by simp [planeGeometry, Clipped.coords] at hp
  cosDegrees_eq _ := rfl
  sinDegrees_eq _ := rfl

theorem planeGeometry_headlandArea {parts : Set ℂ → Parts ℝ}
    (hparts : ∀ s, ∀ ring ∈ (parts s).rings, ∀ p ∈ ring, plane p ∈ closure s)
    (boundaryXY : List (ℝ × ℝ)) (exclusionsXY : List (List (ℝ × ℝ))) :
    headlandArea (planeGeometry parts) boundaryXY exclusionsXY =
      (planeGeometry_exact hparts).lawn boundaryXY exclusionsXY :=
  @ExactShapely.region_headlandArea _ boundaryXY exclusionsXY (planeGeometry_exact hparts)

theorem planeGeometry_fillArea {parts : Set ℂ → Parts ℝ}
    (hparts : ∀ s, ∀ ring ∈ (parts s).rings, ∀ p ∈ ring, plane p ∈ closure s)
    (boundaryXY : List (ℝ × ℝ)) (exclusionsXY : List (List (ℝ × ℝ))) :
    fillArea (planeGeometry parts) boundaryXY exclusionsXY =
      (planeGeometry_exact hparts).lawn boundaryXY exclusionsXY :=
  @ExactShapely.region_fillArea _ (planeGeometry_exact hparts) boundaryXY exclusionsXY

theorem planeGeometry_rectangle (parts : Set ℂ → Parts ℝ) {left bottom right top : ℝ}
    (hwidth : left ≤ right) (hheight : bottom ≤ top) :
    (planeGeometry parts).polygon [(left, bottom), (right, bottom), (right, top), (left, top)] =
      Icc left right ×ℂ Icc bottom top := by
  have hcorners : plane '' {p | p ∈ [(left, bottom), (right, bottom), (right, top), (left, top)]} =
      {left, right} ×ℂ {bottom, top} := by
    ext z
    simp only [mem_image, mem_ofPred_eq, List.mem_cons, List.not_mem_nil, or_false,
      Complex.mem_reProdIm, mem_insert_iff, mem_singleton_iff]
    constructor
    · rintro ⟨p, rfl | rfl | rfl | rfl, rfl⟩ <;> simp [plane]
    · rintro ⟨hre, him⟩
      refine ⟨(z.re, z.im), ?_, rfl⟩
      rcases hre with hre | hre <;> rcases him with him | him <;> simp [hre, him]
  show convexHull ℝ (plane '' _) = _
  rw [hcorners, Complex.convexHull_reProdIm, convexHull_pair, convexHull_pair,
    segment_eq_Icc hwidth,
    segment_eq_Icc hheight]

theorem corners_mem {left bottom right top : ℝ} (hwidth : left ≤ right) (hheight : bottom ≤ top) :
    ∀ p ∈ [(left, bottom), (right, bottom), (right, top), (left, top)],
      plane p ∈ Icc left right ×ℂ Icc bottom top := by
  intro p hp
  have hcases : p = (left, bottom) ∨ p = (right, bottom) ∨ p = (right, top) ∨ p = (left, top) := by
    simpa using hp
  rcases hcases with rfl | rfl | rfl | rfl <;> simp [plane, Complex.mem_reProdIm, hwidth, hheight]

/-- Beside a rectangle a distance is kept from it exactly when it is kept along the first axis. -/
theorem forall_lt_dist_rectangle {p : ℂ} {left bottom right top d : ℝ} (hd : 0 ≤ d)
    (hwidth : left ≤ right) (him : p.im ∈ Icc bottom top) :
    (∀ q ∈ Icc left right ×ℂ Icc bottom top, d < dist p q) ↔
      p.re < left - d ∨ right + d < p.re := by
  have hlevel : ∀ x ∈ Icc left right, (∀ q ∈ Icc left right ×ℂ Icc bottom top, d < dist p q) →
      d < |p.re - x| := by
    intro x hx h
    have hdist := h ⟨x, p.im⟩ ⟨hx, him⟩
    have hsame : dist p ⟨x, p.im⟩ = dist p.re x := Complex.dist_of_im_eq rfl
    rwa [hsame, Real.dist_eq] at hdist
  constructor
  · intro h
    rcases lt_or_ge p.re left with hleft | hleft
    · have := hlevel left ⟨le_rfl, hwidth⟩ h
      rw [abs_of_neg (by linarith)] at this
      exact .inl (by linarith)
    · rcases lt_or_ge right p.re with hright | hright
      · have := hlevel right ⟨hwidth, le_rfl⟩ h
        rw [abs_of_pos (by linarith)] at this
        exact .inr (by linarith)
      · have := hlevel p.re ⟨hleft, hright⟩ h
        rw [sub_self, abs_zero] at this
        linarith
  · intro h q hq
    have hre := Complex.abs_re_le_norm (p - q)
    rw [← dist_eq_norm, Complex.sub_re, abs_le] at hre
    have hq := hq.1
    rcases h with h | h
    · linarith [hq.1]
    · linarith [hq.2]

end MowerRover.Zone
