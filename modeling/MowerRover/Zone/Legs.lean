import MowerRover.Zone.FillPlanned

/-!
# Legs between waypoints

Rings and pieces of sweeps are written one after the other, and the rover drives
straight from each waypoint to the next. No such leg meets an exclusion zone
where a plan is one ring, or where no exclusion zone is between two points of
what is left of the lawn.
-/

namespace MowerRover.Zone

open Set

theorem disjoint_segment_of_closure {s obstacle : Set ℂ} (hopen : IsOpen obstacle)
    (h : ∀ p ∈ s, ∀ q ∈ s, Disjoint (segment ℝ p q) obstacle) :
    ∀ p ∈ closure s, ∀ q ∈ closure s, Disjoint (segment ℝ p q) obstacle := by
  intro p hp q hq
  rw [Set.disjoint_left]
  rintro z ⟨a, b, ha, hb, hab, rfl⟩ hz
  have hcontinuous : Continuous fun ends : ℂ × ℂ => a • ends.1 + b • ends.2 :=
    (continuous_fst.const_smul a).add (continuous_snd.const_smul b)
  have hends : (p, q) ∈ closure (s ×ˢ s) := by
    rw [closure_prod_eq]
    exact ⟨hp, hq⟩
  -- the same point of a line between two points of the set is in the obstacle too
  obtain ⟨ends, hmeets, hends⟩ :=
    mem_closure_iff.mp hends _ (hopen.preimage hcontinuous) hz
  exact Set.disjoint_left.mp (h ends.1 hends.1 ends.2 hends.2) ⟨a, b, ha, hb, hab, rfl⟩ hmeets

section OneRing

variable {K : Type} [Field K] [LinearOrder K] (geometry : Geometry K)

/-- The passes that are reached have one ring between them at most. -/
structure OneRing (insetDistance : K) (rounds : ℕ) (shape : geometry.Shape) : Prop where
  single : ∀ pass < rounds,
    (∀ earlier ≤ pass, Drivable geometry (insets geometry insetDistance earlier shape)) →
      (geometry.parts (insets geometry insetDistance pass shape)).rings.length ≤ 1
  /-- a pass that has one is the last that has -/
  alone : ∀ pass < rounds, ∀ later < rounds, pass < later →
    (∀ earlier ≤ later, Drivable geometry (insets geometry insetDistance earlier shape)) →
      (geometry.parts (insets geometry insetDistance pass shape)).rings ≠ [] →
        (geometry.parts (insets geometry insetDistance later shape)).rings = []

variable {geometry} {insetDistance : K} {rounds : ℕ} {shape : geometry.Shape}

theorem OneRing.inside (h : OneRing geometry insetDistance (rounds + 1) shape)
    (hdrivable : Drivable geometry shape) :
    OneRing geometry insetDistance rounds (geometry.buffer shape (-insetDistance)) := by
  have hreached {pass : ℕ} (hinside : ∀ earlier ≤ pass, Drivable geometry
        (insets geometry insetDistance earlier (geometry.buffer shape (-insetDistance)))) :
      ∀ earlier ≤ pass + 1, Drivable geometry (insets geometry insetDistance earlier shape) := by
    intro earlier hearlier
    cases earlier with
    | zero => exact hdrivable
    | succ earlier => exact hinside earlier (by omega)
  constructor
  · intro pass hpass hinside
    exact h.single (pass + 1) (by omega) (hreached hinside)
  · intro pass hpass later hlater hlt hinside
    exact h.alone (pass + 1) (by omega) (later + 1) (by omega) (by omega) (hreached hinside)

theorem OneRing.not_hasRing (h : OneRing geometry insetDistance (rounds + 1) shape)
    (hdrivable : Drivable geometry shape) (hrings : (geometry.parts shape).rings ≠ []) :
    ¬ HasRing geometry insetDistance rounds (geometry.buffer shape (-insetDistance)) := by
  rintro ⟨pass, hpass, hinside, hring⟩
  apply hring
  refine h.alone 0 (by omega) (pass + 1) (by omega) pass.succ_pos
    (fun earlier hearlier => ?_) hrings
  cases earlier with
  | zero => exact hdrivable
  | succ earlier => exact hinside earlier (by omega)

theorem OneRing.length_headlandRounds (h : OneRing geometry insetDistance rounds shape) :
    (headlandRounds geometry insetDistance rounds shape).length ≤ 1 := by
  induction rounds generalizing shape with
  | zero => simp [headlandRounds]
  | succ rounds ih =>
    rw [headlandRounds]
    split_ifs with hsmall
    · simp
    · have hdrivable := drivable_iff.mp hsmall
      have hinside := ih (h.inside hdrivable)
      by_cases hrings : (geometry.parts shape).rings = []
      · dsimp only
        rw [hrings, List.nil_append]
        split_ifs
        · simp
        · exact hinside
      · have hnil : headlandRounds geometry insetDistance rounds
            (geometry.buffer shape (-insetDistance)) = [] := by
          by_contra hne
          exact h.not_hasRing hdrivable hrings (headlandRounds_ne_nil_iff.mp hne)
        dsimp only
        rw [hnil, ite_self, List.append_nil]
        exact h.single 0 rounds.succ_pos fun earlier hearlier => by
          obtain rfl : earlier = 0 := by omega
          exact hdrivable

end OneRing

section Legs

variable {geometry : Geometry ℝ} (exact : ExactShapely geometry)
  (projector : List LatLon → Projector ℝ) (zone : ZoneConfig)

/-- The edges of a ring, up to its last vertex, are where the shape is. -/
def ExactShapely.DrawsEdges : Prop :=
  ∀ s, ∀ ring ∈ (geometry.parts s).rings,
    ring.IsChain fun a b => segment ℝ (plane a) (plane b) ⊆ closure (exact.region s)

/-- The straight line between two points is clear of every exclusion zone. -/
def ExactShapely.LegClear (p q : ℂ) : Prop :=
  ∀ exclusion ∈ zone.exclusionZones,
    Disjoint (segment ℝ p q) (interior (exact.obstacle projector zone exclusion))

variable (geometry)

/-- The headland passes have one ring at most, and the area inside them is not filled: there is no
ring, it is empty or not larger than a square metre, or no sweep line leaves anything of it. -/
def DrivesOneRing : Prop :=
  ∃ (swath : Swath ℝ) (angleDeg : ℚ), swathOf zone.coverage = some swath ∧
    zone.coverage.angleDeg = .fin angleDeg ∧
    OneRing geometry swath.spacing zone.coverage.headlandPasses.toNat
      (headlandArea geometry (planarBoundary projector zone) (planarExclusions projector zone)) ∧
    (¬ HasRing geometry swath.spacing zone.coverage.headlandPasses.toNat
        (headlandArea geometry (planarBoundary projector zone)
          (planarExclusions projector zone)) ∨
      geometry.isEmpty (fillOf geometry projector zone swath) = true ∨
      geometry.area (fillOf geometry projector zone swath) ≤ 1 ∨
      generateBoustrophedonFill geometry (fillOf geometry projector zone swath) swath
        angleDeg = [])

variable {geometry} {exact} {projector zone}

theorem ExactShapely.disjoint_mowable {exclusion : ExclusionZone}
    (hexclusion : exclusion ∈ zone.exclusionZones) :
    Disjoint (closure (exact.mowable projector zone))
      (interior (exact.obstacle projector zone exclusion)) := by
  have hdisjoint : Disjoint (exact.mowable projector zone)
      (interior (exact.obstacle projector zone exclusion)) := by
    rw [Set.disjoint_left]
    intro p hp hinterior
    have hfar := (ExactShapely.mem_mowable.mp hp).2 exclusion hexclusion p
      (interior_subset hinterior)
    rw [dist_self] at hfar
    linarith
  exact hdisjoint.closure_left isOpen_interior

theorem ExactShapely.headlandRounds_edges (hedges : exact.DrawsEdges) {d : ℝ} (hd : 0 < d)
    {rounds : ℕ} {s : geometry.Shape} {L : Set ℂ} (hs : exact.region s ⊆ L) :
    ∀ ring ∈ headlandRounds geometry d rounds s,
      ring.IsChain fun a b => segment ℝ (plane a) (plane b) ⊆ closure L := by
  induction rounds generalizing s with
  | zero => simp [headlandRounds]
  | succ rounds ih =>
    intro ring hring
    rw [headlandRounds] at hring
    split_ifs at hring
    · simp at hring
    · rcases List.mem_append.mp hring with hring | hring
      · exact (hedges s ring hring).imp fun _ _ hsub => hsub.trans (closure_mono hs)
      · split_ifs at hring
        · simp at hring
        · exact ih ((region_inset_subset exact s hd).trans hs) ring hring

/-- A plan of one ring goes along its edges. -/
theorem planarPlan_edges {plan : List (ℝ × ℝ)} (hedges : exact.DrawsEdges)
    (h : planarPlan geometry projector zone = some plan)
    (hone : DrivesOneRing geometry projector zone) :
    plan.IsChain fun a b =>
      segment ℝ (plane a) (plane b) ⊆ closure (exact.mowable projector zone) := by
  obtain ⟨swath, angleDeg, hswath, hangle, hring, hfill⟩ := hone
  have hplan : planarWaypoints geometry (planarBoundary projector zone)
      (planarExclusions projector zone) swath angleDeg zone.coverage.headlandPasses = plan := by
    unfold planarPlan at h
    dsimp only at h
    rw [hswath, hangle] at h
    exact Option.some.inj h
  have hpasses : plan = (generateHeadlandPasses geometry (planarBoundary projector zone)
      (planarExclusions projector zone) swath zone.coverage.headlandPasses).flatten := by
    rw [← hplan, planarWaypoints, ← fillOf]
    rcases hfill with hnone | hempty | hsmall | hnil
    · have hpasses : generateHeadlandPasses geometry (planarBoundary projector zone)
          (planarExclusions projector zone) swath zone.coverage.headlandPasses = [] := by
        by_contra hne
        exact hnone (headlandPasses_ne_nil_iff.mp hne).2
      simp [hpasses]
    · simp [hempty]
    · simp [hsmall]
    · rw [hnil, ite_self, List.append_nil]
  rw [hpasses, generateHeadlandPasses]
  split_ifs
  · exact .nil
  · dsimp only
    split_ifs
    · exact .nil
    · have hregion : exact.region (headlandArea geometry (planarBoundary projector zone)
          (planarExclusions projector zone)) = exact.mowable projector zone :=
        ExactShapely.region_headlandArea exact
      have hmem : ∀ ring ∈ headlandRounds geometry swath.spacing
          zone.coverage.headlandPasses.toNat (headlandArea geometry
            (planarBoundary projector zone) (planarExclusions projector zone)), _ :=
        ExactShapely.headlandRounds_edges hedges swath.spacing_pos hregion.le
      have hlength := hring.length_headlandRounds
      cases hrounds : headlandRounds geometry swath.spacing zone.coverage.headlandPasses.toNat
          (headlandArea geometry (planarBoundary projector zone)
            (planarExclusions projector zone)) with
      | nil => exact .nil
      | cons ring rings =>
        rw [hrounds] at hlength hmem
        obtain rfl : rings = [] := by simpa using hlength
        rw [List.flatten_singleton]
        exact hmem ring List.mem_cons_self

/-- Every leg is clear when no more than one ring is driven, or when no line between two points of
what is left of the lawn meets an exclusion zone, and when there are no waypoints. -/
theorem planarPlan_legClear {plan : List (ℝ × ℝ)} (hedges : exact.DrawsEdges)
    (h : planarPlan geometry projector zone = some plan)
    (hclear : zone.coverage.headlandPasses ≤ 0 ∨ DrivesOneRing geometry projector zone ∨
      ∀ p ∈ exact.mowable projector zone, ∀ q ∈ exact.mowable projector zone,
        exact.LegClear projector zone p q) :
    plan.IsChain fun a b => exact.LegClear projector zone (plane a) (plane b) := by
  rcases hclear with hpasses | hone | hclear
  · rw [planarPlan_eq_nil h hpasses]
    exact .nil
  · apply (planarPlan_edges hedges h hone).imp
    intro a b hsub exclusion hexclusion
    exact (ExactShapely.disjoint_mowable hexclusion).mono_left hsub
  · apply (List.pairwise_of_forall_mem_list _).isChain
    intro a ha b hb exclusion hexclusion
    apply disjoint_segment_of_closure isOpen_interior
      (fun p hp q hq => hclear p hp q hq exclusion hexclusion)
    · exact ExactShapely.planarPlan_mem h a ha
    · exact ExactShapely.planarPlan_mem h b hb

end Legs

/-- What the strip leaves when it reaches beyond the lawn. -/
noncomputable def westSide : Parts ℝ := .polygon (pieceOf westRing)

theorem stripArea_west : stripArea (28 / 5) = Ico 0 (6 / 5) ×ℂ Icc 0 (51 / 5) := by
  have hempty : Ioc (28 / 5 : ℝ) (17 / 4) = ∅ := Ioc_eq_empty (by norm_num)
  rw [stripArea, hempty, union_empty]

theorem westSide_rings : westSide.rings = [westRing] := by
  simp [westSide, pieceOf, Parts.rings, PolygonPart.rings, westRing]

theorem westSide_mem : ∀ ring ∈ westSide.rings, ∀ p ∈ ring,
    plane p ∈ closure (stripArea (28 / 5)) := by
  rw [westSide_rings, stripArea_west, Complex.closure_reProdIm, closure_Ico (by norm_num),
    closure_Icc]
  intro ring hring
  obtain rfl := List.mem_singleton.mp hring
  exact corners_mem (by norm_num) (by norm_num)

theorem segment_subset_rectangle {left bottom right top : ℝ} {p q : ℂ}
    (hp : p ∈ Icc left right ×ℂ Icc bottom top) (hq : q ∈ Icc left right ×ℂ Icc bottom top) :
    segment ℝ p q ⊆ Icc left right ×ℂ Icc bottom top :=
  (((convex_Icc left right).linear_preimage Complex.reLm).inter
    ((convex_Icc bottom top).linear_preimage Complex.imLm)).segment_subset hp hq

theorem westSide_edges : (planeGeometry_exact (partsOf_mem westSide_mem)).DrawsEdges := by
  intro s ring hring
  have hring : ring ∈ (partsOf (stripArea (28 / 5)) westSide s).rings := hring
  unfold partsOf at hring
  split_ifs at hring with hs
  · have hclosure : closure s = Icc 0 (6 / 5) ×ℂ Icc 0 (51 / 5) := by
      rw [hs, stripArea_west, Complex.closure_reProdIm, closure_Ico (by norm_num), closure_Icc]
    show ring.IsChain fun a b => segment ℝ (plane a) (plane b) ⊆ closure s
    rw [westSide_rings, List.mem_singleton] at hring
    subst hring
    rw [hclosure]
    apply (List.pairwise_of_forall_mem_list _).isChain
    intro a ha b hb
    exact segment_subset_rectangle (corners_mem (by norm_num) (by norm_num) a ha)
      (corners_mem (by norm_num) (by norm_num) b hb)
  · simp [Parts.rings] at hring

/-- There are no points that are that far from both sides. -/
theorem stripArea_west_inset {parts : Set ℂ → Parts ℝ}
    (hparts : ∀ s, ∀ ring ∈ (parts s).rings, ∀ p ∈ ring, plane p ∈ closure s) {d : ℝ}
    (hd : 3 / 5 < d) : (planeGeometry parts).buffer (stripArea (28 / 5)) (-d) = (∅ : Set ℂ) := by
  have hinset := (planeGeometry_exact hparts).region_inset (stripArea (28 / 5)) d (by linarith)
  apply hinset.trans
  rw [Set.eq_empty_iff_forall_notMem]
  intro p hp
  have hbeside (x : ℝ) (hx : |x| ≤ d) : 0 ≤ p.re + x ∧ p.re + x < 6 / 5 := by
    have hmem : p + (x : ℂ) ∈ stripArea (28 / 5) := by
      apply hp
      rw [dist_comm, dist_eq_norm, add_sub_cancel_left, Complex.norm_real, Real.norm_eq_abs]
      exact hx
    rw [stripArea_west] at hmem
    exact hmem.1
  have hleft := (hbeside (-d) (by rw [abs_neg, abs_of_pos (by linarith)])).1
  have hright := (hbeside d (by rw [abs_of_pos (by linarith)])).2
  linarith

/-- The strip leaves one piece to the west, which is too narrow for a second pass. -/
theorem stripZone_drivesOneRing :
    DrivesOneRing (planeGeometry (partsOf (stripArea (28 / 5)) westSide)) gridProjector
      (stripZone 6 1) := by
  have hwidth : (0 : ℝ) < (54 : ℚ) * (127 / 5000) ∧ (0 : ℝ) ≤ (10 : ℚ) ∧ ((10 : ℚ) : ℝ) ≤ 50 := by
    norm_num
  have harea : headlandArea (planeGeometry (partsOf (stripArea (28 / 5)) westSide))
      (planarBoundary gridProjector (stripZone 6 1))
        (planarExclusions gridProjector (stripZone 6 1)) =
        stripArea (28 / 5) :=
    (planeGeometry_headlandArea (partsOf_mem westSide_mem) _ _).trans
      (stripZone_mowable (by norm_num) (by norm_num))
  have hfill : fillArea (planeGeometry (partsOf (stripArea (28 / 5)) westSide))
      (planarBoundary gridProjector (stripZone 6 1))
        (planarExclusions gridProjector (stripZone 6 1)) =
        stripArea (28 / 5) :=
    (planeGeometry_fillArea (partsOf_mem westSide_mem) _ _).trans
      (stripZone_mowable (by norm_num) (by norm_num))
  refine ⟨⟨_, _, hwidth.1, hwidth.2.1, hwidth.2.2⟩, 0, dif_pos hwidth, rfl, ⟨?_, ?_⟩,
    .inr (.inl ?_)⟩
  · intro pass hpass _
    obtain rfl : pass = 0 := Nat.lt_one_iff.mp hpass
    rw [harea]
    show (partsOf (stripArea (28 / 5)) westSide (stripArea (28 / 5))).rings.length ≤ 1
    rw [partsOf_self, westSide_rings]
    simp
  · intro pass hpass later hlater hlt
    have hone : later < 1 := hlater
    omega
  · have hnone := stripArea_west_inset (partsOf_mem westSide_mem)
      (d := (54 : ℚ) * (127 / 5000) * (1 - (10 : ℚ) / 100)) (by norm_num)
    rw [fillOf, innermostPolygon, hfill]
    show (planeGeometry (partsOf (stripArea (28 / 5)) westSide)).isEmpty
      (ite _ ((planeGeometry _).buffer _ (-(54 * (127 / 5000) * (1 - 10 / 100))))
        ((planeGeometry _).buffer _ (-(54 * (127 / 5000) * (1 - 10 / 100))))) = true
    rw [ite_self]
    exact @decide_eq_true _ (Classical.propDecidable _) hnone

theorem planarPlan_legClear_west : ∃ rest,
    planarPlan (planeGeometry (partsOf (stripArea (28 / 5)) westSide)) gridProjector
      (stripZone 6 1) =
      some (westRing ++ rest) ∧
    (westRing ++ rest).IsChain fun a b =>
      (planeGeometry_exact (partsOf_mem westSide_mem)).LegClear gridProjector (stripZone 6 1)
        (plane a) (plane b) := by
  have harea : 1 ≤ (partsOf (stripArea (28 / 5)) westSide (stripArea (28 / 5))).area := by
    rw [partsOf_self]
    norm_num [westSide, pieceOf, Parts.area]
  obtain ⟨rest, hrest⟩ := stripZone_plan (partsOf_mem westSide_mem) 1 (by norm_num)
    (by norm_num : 17 / 20 * ((6 : ℤ) : ℝ) + 1 / 2 = 28 / 5) harea
  rw [partsOf_self, westSide_rings, List.flatten_singleton] at hrest
  exact ⟨rest, hrest, planarPlan_legClear westSide_edges hrest
    (.inr (.inl stripZone_drivesOneRing))⟩

/-- The leg from one side of a hedge to the other goes through it. -/
theorem hedge_crossed :
    loadZoneConfig ⟨fun _ => .ok true⟩ "zones/ne.yaml" (stripFile 3 1) = .ok (stripZone 3 1) ∧
    ∃ plan, planarPlan stripGeometry gridProjector (stripZone 3 1) = some plan ∧
      [(0, 51 / 5), (61 / 20, 0)] <:+: plan ∧
      ¬ stripGeometry_exact.LegClear gridProjector (stripZone 3 1) (plane (0, 51 / 5))
        (plane (61 / 20, 0)) := by
  obtain ⟨rest, hrest⟩ := stripGeometry_plan 1
  refine ⟨stripFile_loads, _, hrest, ⟨westRing.take 3, eastRing.drop 1 ++ rest, ?_⟩,
    fun hclear => ?_⟩
  · simp [westRing, eastRing]
  have hdisjoint := hclear (hedge 3 1) List.mem_cons_self
  rw [stripGeometry_obstacle, Complex.interior_reProdIm, interior_Icc, interior_Icc] at hdisjoint
  -- two thirds of the way to the east
  have hmeets : plane (61 / 30, 17 / 5) ∈ segment ℝ (plane (0, 51 / 5)) (plane (61 / 20, 0)) := by
    refine ⟨1 / 3, 2 / 3, by norm_num, by norm_num, by norm_num, ?_⟩
    apply Complex.ext <;> norm_num [plane]
  apply Set.disjoint_left.mp hdisjoint hmeets
  refine ⟨⟨?_, ?_⟩, ?_, ?_⟩ <;> norm_num [plane]

end MowerRover.Zone
