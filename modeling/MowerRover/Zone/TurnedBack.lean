import MowerRover.Zone.Clearance
import MowerRover.Zone.SweepLines

/-!
# Sweeps that are turned back

The polygon is turned by Shapely, clockwise around the corner of its bounding
box, and the waypoints are turned back by a formula of the planner's own. The
angle only enters through its cosine and its sine.
-/

namespace MowerRover.Zone

open Set Numeric

/-- A point turned around another by an angle of this cosine and sine. -/
def turnedBy {K : Type} [Field K] (cosine sine : K) (origin p : K × K) : K × K :=
  (cosine * (p.1 - origin.1) - sine * (p.2 - origin.2) + origin.1,
    sine * (p.1 - origin.1) + cosine * (p.2 - origin.2) + origin.2)

theorem turnedBy_turnedBy_neg {K : Type} [Field K] {cosine sine : K}
    (hunit : cosine ^ 2 + sine ^ 2 = 1) (origin p : K × K) :
    turnedBy cosine sine origin (turnedBy cosine (-sine) origin p) = p := by
  apply Prod.ext
  · calc (turnedBy cosine sine origin (turnedBy cosine (-sine) origin p)).1
        = (cosine ^ 2 + sine ^ 2) * (p.1 - origin.1) + origin.1 := by
          simp only [turnedBy]
          ring
      _ = p.1 := by rw [hunit, one_mul, sub_add_cancel]
  · calc (turnedBy cosine sine origin (turnedBy cosine (-sine) origin p)).2
        = (cosine ^ 2 + sine ^ 2) * (p.2 - origin.2) + origin.2 := by
          simp only [turnedBy]
          ring
      _ = p.2 := by rw [hunit, one_mul, sub_add_cancel]

theorem rotateBack_eq {K : Type} [Field K] {geometry : Geometry K} (origin : K × K) (angleDeg : K)
    (p : K × K) : rotateBack geometry origin angleDeg p =
      turnedBy (geometry.cosDegrees angleDeg) (geometry.sinDegrees angleDeg) origin p := by
  unfold rotateBack turnedBy
  simp only [mul_comm]

/-- Shapely with exact rotations and intersections, and the cosine and the sine of every angle. -/
structure ExactTurns {K : Type} [Field K] [LinearOrder K] [IsStrictOrderedRing K]
    (geometry : Geometry K) where
  region : geometry.Shape → Set (K × K)
  unit : ∀ angleDeg, geometry.cosDegrees angleDeg ^ 2 + geometry.sinDegrees angleDeg ^ 2 = 1
  cos_zero : geometry.cosDegrees 0 = 1
  sin_zero : geometry.sinDegrees 0 = 0
  cos_neg : ∀ angleDeg, geometry.cosDegrees (-angleDeg) = geometry.cosDegrees angleDeg
  sin_neg : ∀ angleDeg, geometry.sinDegrees (-angleDeg) = -geometry.sinDegrees angleDeg
  region_rotate : ∀ s angleDeg origin, region (geometry.rotate s angleDeg origin) =
    turnedBy (geometry.cosDegrees angleDeg) (geometry.sinDegrees angleDeg) origin '' region s
  intersection_mem : ∀ s start stop, ∀ p ∈ (geometry.intersection s start stop).coords,
    p ∈ region s ∩ segment K start stop

section Turns

variable {K : Type} [Field K] [LinearOrder K] [IsStrictOrderedRing K] {geometry : Geometry K}

theorem ExactTurns.rotateBack_inverse (exact : ExactTurns geometry) (origin : K × K) (angleDeg : K)
    (p : K × K) :
    let turn := turnedBy (geometry.cosDegrees (-angleDeg)) (geometry.sinDegrees (-angleDeg)) origin
    rotateBack geometry origin angleDeg (turn p) = p ∧
      turn (rotateBack geometry origin angleDeg p) = p := by
  dsimp only
  rw [exact.cos_neg, exact.sin_neg, rotateBack_eq, rotateBack_eq]
  constructor
  · exact turnedBy_turnedBy_neg (exact.unit angleDeg) origin p
  · have hunit : geometry.cosDegrees angleDeg ^ 2 + (-geometry.sinDegrees angleDeg) ^ 2 = 1 := by
      rw [neg_sq, exact.unit]
    have hback := turnedBy_turnedBy_neg hunit origin p
    rwa [neg_neg] at hback

theorem ExactTurns.rotateBack_mem (exact : ExactTurns geometry) {s : geometry.Shape}
    {origin p : K × K} {angleDeg : K}
    (h : p ∈ exact.region (geometry.rotate s (-angleDeg) origin)) :
    rotateBack geometry origin angleDeg p ∈ exact.region s := by
  rw [exact.region_rotate] at h
  obtain ⟨q, hq, rfl⟩ := h
  rw [(exact.rotateBack_inverse origin angleDeg q).1]
  exact hq

theorem ExactTurns.rotate_zero_mem (exact : ExactTurns geometry) {s : geometry.Shape}
    {origin p : K × K} (h : p ∈ exact.region (geometry.rotate s (-0) origin)) : p ∈
      exact.region s := by
  have hback := exact.rotateBack_mem h
  rw [rotateBack_eq, exact.cos_zero, exact.sin_zero] at hback
  simpa [turnedBy] using hback

variable [FloorRing K]

/-- The turn back is the exact inverse of the turn before the clipping, for every angle, and every
waypoint of a fill lies in the polygon that is filled. -/
theorem fill_mem_mowable (exact : ExactTurns geometry) (mowable : geometry.Shape)
    (swath : Swath K) (angleDeg : K) :
    (∀ origin p,
      let turn := turnedBy (geometry.cosDegrees (-angleDeg))
        (geometry.sinDegrees (-angleDeg)) origin
      rotateBack geometry origin angleDeg (turn p) = p ∧
        turn (rotateBack geometry origin angleDeg p) = p) ∧
    ∀ p ∈ generateBoustrophedonFill geometry mowable swath angleDeg, p ∈ exact.region mowable := by
  refine ⟨fun origin p => exact.rotateBack_inverse origin angleDeg p, ?_⟩
  intro p hp
  rw [generateBoustrophedonFill] at hp
  split_ifs at hp with hsmall hangle
  · simp at hp
  · obtain ⟨start, stop, hclip⟩ := mem_sweeps hp
    have hmem := (exact.intersection_mem _ start stop p hclip).1
    rw [rotatedPolygon, hangle] at hmem
    exact exact.rotate_zero_mem hmem
  · obtain ⟨q, hq, rfl⟩ := List.mem_map.mp hp
    obtain ⟨start, stop, hclip⟩ := mem_sweeps hq
    exact exact.rotateBack_mem (exact.intersection_mem _ start stop q hclip).1

/-- Where the first line leaves something of the polygon there are waypoints. -/
theorem fill_ne_nil {mowable : geometry.Shape} {swath : Swath K} {angleDeg : K}
    (hempty : geometry.isEmpty mowable = false) (harea : 1 ≤ geometry.area mowable)
    {bounds : Bounds K} (hbounds : geometry.bounds
      (rotatedPolygon geometry mowable angleDeg) = bounds)
    (hheight : bounds.miny + swath.spacing / (2 : ℕ) ≤ bounds.maxy - swath.spacing / (2 : ℕ))
    {start : K × K} {coords : List (K × K)}
    (hclip : geometry.intersection (rotatedPolygon geometry mowable angleDeg)
      (bounds.minx - 10, bounds.miny + swath.spacing / (2 : ℕ))
      (bounds.maxx + 10, bounds.miny + swath.spacing / (2 : ℕ)) = .lineString (start :: coords)) :
    generateBoustrophedonFill geometry mowable swath angleDeg ≠ [] := by
  have hdrawn : ¬ (geometry.isEmpty mowable || geometry.area mowable < 1) = true := by
    simpa [hempty] using harea
  have hfirst : sweepCoords geometry (rotatedPolygon geometry mowable angleDeg) bounds true
      (bounds.miny + swath.spacing / (2 : ℕ)) = start :: coords := by
    simp only [sweepCoords, if_true, hclip]
  rw [generateBoustrophedonFill, if_neg hdrawn]
  dsimp only
  rw [hbounds, sweepLines, stepsTo, if_pos hheight, sweeps, hfirst]
  split_ifs <;> simp

end Turns

/-- What is left of a segment, where that is a segment again. -/
noncomputable def clipped (s : Set ℂ) (start stop : ℝ × ℝ) : Clipped ℝ :=
  @dite _ (∃ ends : (ℝ × ℝ) × (ℝ × ℝ),
      Set.preimage plane s ∩ segment ℝ start stop = segment ℝ ends.1 ends.2)
    (Classical.propDecidable _) (fun h => .lineString [h.choose.1, h.choose.2]) fun _ => .other

theorem clipped_mem {s : Set ℂ} {start stop : ℝ × ℝ} : ∀ p ∈ (clipped s start stop).coords,
    p ∈ Set.preimage plane s ∩ segment ℝ start stop := by
  intro p hp
  unfold clipped at hp
  split_ifs at hp with h
  · rw [h.choose_spec]
    have hends : p = h.choose.1 ∨ p = h.choose.2 := by simpa [Clipped.coords] using hp
    rcases hends with rfl | rfl
    · exact left_mem_segment ℝ _ _
    · exact right_mem_segment ℝ _ _
  · simp [Clipped.coords] at hp

theorem plane_injective : Function.Injective plane := fun _ _ h =>
  Prod.ext (congrArg Complex.re h) (congrArg Complex.im h)

theorem plane_turnedBy (origin p : ℝ × ℝ) (angleDeg : ℝ) :
    plane (turnedBy (Real.cos (angleDeg * Real.pi / 180)) (Real.sin (angleDeg * Real.pi / 180))
      origin p) = turned (plane origin) angleDeg (plane p) := by
  apply Complex.ext
  · simp [plane, turnedBy, turned]
  · simp only [plane, turnedBy, turned, Complex.add_im, Complex.mul_im, Complex.sub_re,
      Complex.sub_im]
    ring

/-- A lawn of ten metres by twenty. -/
def eightBySixteen : List (ℝ × ℝ) := [(0, 0), (8, 0), (8, 16), (0, 16)]

/-- The plane with sweep lines that are cut, and the one lawn of which the area is known. -/
noncomputable def cutGeometry : Geometry ℝ :=
  { planeGeometry (partsOf (convexHull ℝ (plane '' {p | p ∈ eightBySixteen}))
      (.polygon ⟨eightBySixteen, [], 128⟩)) with intersection := clipped }

noncomputable def cutGeometry_exact : ExactTurns cutGeometry where
  region s := Set.preimage plane s
  unit _ := Real.cos_sq_add_sin_sq _
  cos_zero := by simp [cutGeometry, planeGeometry]
  sin_zero := by simp [cutGeometry, planeGeometry]
  cos_neg angleDeg := by
    simp only [cutGeometry, planeGeometry]
    rw [neg_mul, neg_div, Real.cos_neg]
  sin_neg angleDeg := by
    simp only [cutGeometry, planeGeometry]
    rw [neg_mul, neg_div, Real.sin_neg]
  region_rotate s angleDeg origin := by
    ext p
    constructor
    · rintro ⟨z, hz, hp⟩
      refine ⟨(z.re, z.im), hz, ?_⟩
      have hplane := plane_turnedBy origin (z.re, z.im) angleDeg
      exact plane_injective (hplane.trans hp)
    · rintro ⟨q, hq, rfl⟩
      exact ⟨plane q, hq, (plane_turnedBy origin q angleDeg).symm⟩
  intersection_mem _ _ _ := clipped_mem

/-- A cutting width of one metre without an overlap. -/
noncomputable def metreSwathReal : Swath ℝ where
  width := 1
  overlap := 0
  width_pos := one_pos
  overlap_nonneg := le_rfl
  overlap_le := noOverlap_le

theorem cutGeometry_lawn :
    cutGeometry.polygon eightBySixteen = (Icc 0 8 ×ℂ Icc 0 16 : Set ℂ) :=
  planeGeometry_rectangle (fun _ => .other) (by norm_num) (by norm_num)

theorem cutGeometry_area : cutGeometry.area (cutGeometry.polygon eightBySixteen) = 128 :=
  congrArg Parts.area (partsOf_self _ _)

theorem convex_turned {s : Set ℂ} (h : Convex ℝ s) (origin : ℂ) (angleDeg : ℝ) :
    Convex ℝ (turned origin angleDeg '' s) := by
  rintro _ ⟨p, hp, rfl⟩ _ ⟨q, hq, rfl⟩ a b ha hb hab
  refine ⟨a • p + b • q, h hp hq ha hb hab, ?_⟩
  have hone : (a : ℂ) + b = 1 := by exact_mod_cast hab
  simp only [turned, Complex.real_smul]
  linear_combination (_ * origin - origin) * hone

/-- A line through a convex polygon is cut to a segment. -/
theorem clipped_convex {s : Set ℂ} (hcompact : IsCompact s) (hconvex : Convex ℝ s)
    {left right y : ℝ} (hwithin : ∀ z ∈ s, z.re ∈ Icc left right) (hmeets : y ∈ Complex.im '' s) :
    ∃ start stop, clipped s (left, y) (right, y) = .lineString [start, stop] := by
  obtain ⟨z, hz, rfl⟩ := hmeets
  let across : Set ℝ := {x | (⟨x, z.im⟩ : ℂ) ∈ s}
  have hcontinuous : Continuous fun x : ℝ => (⟨x, z.im⟩ : ℂ) := by
    exact Complex.equivRealProdCLM.symm.continuous.comp (Continuous.prodMk_left z.im)
  have hclosed : IsCompact across :=
    isCompact_Icc.of_isClosed_subset (hcompact.isClosed.preimage hcontinuous) fun x hx =>
      hwithin _ hx
  have hsegments : Convex ℝ across := by
    intro p hp q hq a b ha hb hab
    have hmem := hconvex hp hq ha hb hab
    have heq : a • (⟨p, z.im⟩ : ℂ) + b • (⟨q, z.im⟩ : ℂ) = ⟨a • p + b • q, z.im⟩ := by
      apply Complex.ext
      · simp
      · simp [← add_mul, hab]
    rwa [heq] at hmem
  have hicc := eq_Icc_of_connected_compact ⟨⟨z.re, hz⟩, hsegments.isPreconnected⟩ hclosed
  have hle : sInf across ≤ sSup across := by
    rw [← nonempty_Icc, ← hicc]
    exact ⟨z.re, hz⟩
  have hends : Set.preimage plane s ∩ segment ℝ (left, z.im) (right, z.im) =
      segment ℝ (sInf across, z.im) (sSup across, z.im) := by
    have hbounds : left ≤ right := (hwithin z hz).1.trans (hwithin z hz).2
    rw [← Prod.image_mk_segment_left, ← Prod.image_mk_segment_left, segment_eq_Icc hbounds,
      segment_eq_Icc hle, ← hicc]
    ext p
    constructor
    · rintro ⟨hp, x, hx, rfl⟩
      exact ⟨x, hp, rfl⟩
    · rintro ⟨x, hx, rfl⟩
      exact ⟨hx, x, hwithin _ hx, rfl⟩
  exact ⟨_, _, dif_pos ⟨((sInf across, z.im), (sSup across, z.im)), hends⟩⟩

theorem image_eq_Icc {f : ℂ → ℝ} (hf : Continuous f) {s : Set ℂ} (hcompact : IsCompact s)
    (hconvex : Convex ℝ s) (hne : s.Nonempty) : f '' s = Icc (sInf (f '' s)) (sSup (f '' s)) :=
  eq_Icc_of_connected_compact ⟨hne.image f, hconvex.isPreconnected.image f hf.continuousOn⟩
    (hcompact.image hf)

/-- A polygon that is higher than the spacing when it is turned is cut by a sweep line. -/
theorem cutGeometry_fill_ne_nil {mowable : Set ℂ} (hcompact : IsCompact mowable)
    (hconvex : Convex ℝ mowable) (harea : 1 ≤ cutGeometry.area mowable) {swath : Swath ℝ}
    {angleDeg : ℝ} {low high : ℂ} (hlow : low ∈ mowable) (hhigh : high ∈ mowable)
    (hheight : ∀ origin, swath.spacing ≤
      (turned origin (-angleDeg) high).im - (turned origin (-angleDeg) low).im) :
    generateBoustrophedonFill cutGeometry mowable swath angleDeg ≠ [] := by
  let corner := plane ((cutGeometry.bounds mowable).minx, (cutGeometry.bounds mowable).miny)
  let rotated := turned corner (-angleDeg) '' mowable
  have hcompact' : IsCompact rotated := hcompact.image (continuous_turned _ _)
  have hconvex' : Convex ℝ rotated := convex_turned hconvex _ _
  have hne : rotated.Nonempty := ⟨_, low, hlow, rfl⟩
  have hre := image_eq_Icc Complex.continuous_re hcompact' hconvex' hne
  have him := image_eq_Icc Complex.continuous_im hcompact' hconvex' hne
  have hbottom : (turned corner (-angleDeg) low).im ∈ Complex.im '' rotated :=
    ⟨_, ⟨low, hlow, rfl⟩, rfl⟩
  have htop : (turned corner (-angleDeg) high).im ∈ Complex.im '' rotated :=
    ⟨_, ⟨high, hhigh, rfl⟩, rfl⟩
  rw [him] at hbottom htop
  have hspacing := hheight corner
  have hpos := swath.spacing_pos
  -- the first line is inside
  have hfirst : sInf (Complex.im '' rotated) + swath.spacing / (2 : ℕ) ≤
      sSup (Complex.im '' rotated) - swath.spacing / (2 : ℕ) := by
    push_cast
    linarith [hbottom.1, htop.2]
  have hmeets : sInf (Complex.im '' rotated) + swath.spacing / (2 : ℕ) ∈ Complex.im '' rotated := by
    apply him.ge
    push_cast at hfirst ⊢
    constructor <;> linarith
  have hwithin : ∀ z ∈ rotated, z.re ∈ Icc (sInf (Complex.re '' rotated) - 10)
      (sSup (Complex.re '' rotated) + 10) := by
    intro z hz
    have hmem : z.re ∈ Complex.re '' rotated := ⟨z, hz, rfl⟩
    have hmem := hre.le hmem
    constructor <;> linarith [hmem.1, hmem.2]
  obtain ⟨start, stop, hclip⟩ := clipped_convex hcompact' hconvex' hwithin hmeets
  have hempty : cutGeometry.isEmpty mowable = false :=
    @decide_eq_false _ (Classical.propDecidable _) (Set.Nonempty.ne_empty ⟨low, hlow⟩)
  exact fill_ne_nil hempty harea rfl hfirst hclip

theorem turned_im_sub (origin : ℂ) (angleDeg : ℝ) (p q : ℂ) :
    (turned origin angleDeg p).im - (turned origin angleDeg q).im =
      Real.cos (angleDeg * Real.pi / 180) * (p.im - q.im) +
        Real.sin (angleDeg * Real.pi / 180) * (p.re - q.re) := by
  simp only [turned, Complex.add_im, Complex.mul_im, Complex.sub_re, Complex.sub_im]
  ring

theorem fill_mem_mowable_tilted :
    generateBoustrophedonFill cutGeometry (cutGeometry.polygon eightBySixteen) metreSwathReal 30 ≠
      [] ∧
    (∀ origin p,
      let turn := turnedBy (cutGeometry.cosDegrees (-30)) (cutGeometry.sinDegrees (-30)) origin
      rotateBack cutGeometry origin 30 (turn p) = p ∧
        turn (rotateBack cutGeometry origin 30 p) = p) ∧
    ∀ p ∈ generateBoustrophedonFill cutGeometry (cutGeometry.polygon eightBySixteen)
      metreSwathReal 30, p ∈ cutGeometry_exact.region (cutGeometry.polygon eightBySixteen) := by
  refine ⟨?_, fill_mem_mowable cutGeometry_exact _ metreSwathReal 30⟩
  have harea : 1 ≤ cutGeometry.area (cutGeometry.polygon eightBySixteen) := by
    rw [cutGeometry_area]
    norm_num
  rw [cutGeometry_lawn] at harea ⊢
  have hlow : (8 : ℂ) ∈ Set.Icc (0 : ℝ) 8 ×ℂ Set.Icc (0 : ℝ) 16 :=
    ⟨⟨by norm_num, by norm_num⟩, by norm_num, by norm_num⟩
  have hhigh : (0 : ℂ) ∈ Set.Icc (0 : ℝ) 8 ×ℂ Set.Icc (0 : ℝ) 16 :=
    ⟨⟨by norm_num, by norm_num⟩, by norm_num, by norm_num⟩
  refine cutGeometry_fill_ne_nil (isCompact_Icc.reProdIm isCompact_Icc)
    (((convex_Icc _ _).linear_preimage Complex.reLm).inter
      ((convex_Icc _ _).linear_preimage Complex.imLm)) harea hlow hhigh ?_
  intro origin
  have hangle : (-30 : ℝ) * Real.pi / 180 = -(Real.pi / 6) := by ring
  rw [turned_im_sub, hangle, Real.sin_neg, Real.sin_pi_div_six]
  norm_num [Swath.spacing, metreSwathReal]

end MowerRover.Zone
