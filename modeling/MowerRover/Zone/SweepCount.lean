import MowerRover.Zone.SweepLines

/-!
# How many sweep lines there are

The spacing of the lines is at least half the cutting width, so that the loop
over them ends: after as many rounds as whole spacings fit into the height.
-/

namespace MowerRover.Zone

open Numeric

section Count

variable {K : Type} [Field K] [LinearOrder K] [IsStrictOrderedRing K] [FloorRing K]

section Lines

variable {swath : Swath K} {bounds : Bounds K}

theorem length_sweepLines :
    (sweepLines swath bounds).length = ⌊bounds.height / swath.spacing⌋₊ := by
  have hpos := swath.spacing_pos
  have hwhole : (bounds.maxy - swath.spacing / 2 - (bounds.miny + swath.spacing / 2)) /
    swath.spacing =
      bounds.height / swath.spacing - 1 := by
    unfold Bounds.height
    field_simp
    ring
  rw [sweepLines, length_stepsTo, Nat.cast_ofNat, hwhole, Int.floor_sub_one, sub_add_cancel,
    Int.floor_toNat]

theorem sweepLines_inside : ∀ l ∈ sweepLines swath bounds,
    swath.spacing / 2 ≤ l - bounds.miny ∧ swath.spacing / 2 ≤ bounds.maxy - l := by
  intro l hl
  obtain ⟨k, rfl, hk⟩ := mem_sweepLines.mp hl
  have : 0 ≤ (k : K) * swath.spacing := mul_nonneg k.cast_nonneg swath.spacing_pos.le
  unfold Bounds.height at hk
  constructor <;> linarith

end Lines

/-- The width is not refused and the overlap is a percentage of up to fifty. -/
theorem coerceCoverage_accepted {raw : Yaml} {coverage : CoverageParams}
    (h : coerceCoverage raw = .ok coverage) : coverage.cuttingWidthIn.le (.fin 0) = false ∧
      ∃ overlap : ℚ, coverage.overlapPct = .fin overlap ∧ 0 ≤ overlap ∧ overlap ≤ 50 := by
  cases raw with
  | dict entries =>
    simp only [coerceCoverage, bind_eq_ok] at h
    obtain ⟨width, -, h⟩ := h
    split_ifs at h with hwidth
    · cases h
    simp only [bind_eq_ok] at h
    obtain ⟨overlapPct, -, h⟩ := h
    split_ifs at h with hoverlap
    · cases h
    simp only [bind_eq_ok] at h
    obtain ⟨mowSpeed, -, h⟩ := h
    split_ifs at h
    · cases h
    simp only [bind_eq_ok] at h
    obtain ⟨turnSpeed, -, h⟩ := h
    split_ifs at h
    · cases h
    simp only [bind_eq_ok] at h
    obtain ⟨-, -, angleDeg, -, headlandPasses, -, h⟩ := h
    obtain rfl := Except.ok.inj h
    refine ⟨by simpa using hwidth, ?_⟩
    cases overlapPct with
    | fin overlap => exact ⟨overlap, rfl, by simpa [PyFloat.le] using hoverlap⟩
    | inf negative => cases negative <;> simp [PyFloat.le] at hoverlap
    | nan => simp [PyFloat.le] at hoverlap
  | _ =>
    obtain rfl := Except.ok.inj h
    exact ⟨by decide, 10, rfl, by norm_num, by norm_num⟩

omit [FloorRing K] in
theorem swathOf_accepted {raw : Yaml} {coverage : CoverageParams} {width : ℚ}
    (h : coerceCoverage raw = .ok coverage) (hwidth : coverage.cuttingWidthIn = .fin width) :
    ∃ (swath : Swath K) (overlap : ℚ), swathOf coverage = some swath ∧
      swath.width = width * (127 / 5000) ∧ coverage.overlapPct = .fin overlap ∧
        swath.overlap = overlap := by
  obtain ⟨hpositive, overlap, hoverlap, hnonneg, hfifty⟩ := coerceCoverage_accepted h
  rw [hwidth] at hpositive
  have hwidth0 : (0 : K) < width := Rat.cast_pos.mpr (by simpa [PyFloat.le] using hpositive)
  have hnonneg' : (0 : K) ≤ overlap := Rat.cast_nonneg.mpr hnonneg
  have hfifty' : (overlap : K) ≤ 50 := by exact_mod_cast hfifty
  have husable : (0 : K) < (width : K) * (127 / 5000) ∧ (0 : K) ≤ overlap ∧ (overlap : K) ≤ 50 :=
    ⟨by positivity, hnonneg', hfifty'⟩
  refine ⟨⟨_, _, husable.1, husable.2.1, husable.2.2⟩, overlap, ?_, rfl, hoverlap, rfl⟩
  rw [swathOf, hwidth, hoverlap]
  exact dif_pos husable

/-- The loop over the sweep lines of a polygon ends after as many rounds as whole spacings fit into
the height of its rotated copy, and keeps half a spacing from both ends of it. -/
structure CountsSpacings (geometry : Geometry K) (mowable : geometry.Shape) (swath : Swath K)
    (angleDeg : K) (bounds : Bounds K) (lines : List K) : Prop where
  ends : stepsWithin swath.spacing (bounds.maxy - swath.spacing / 2)
    ⌊bounds.height / swath.spacing⌋₊ (bounds.miny + swath.spacing / 2) = some lines
  count : lines.length = ⌊bounds.height / swath.spacing⌋₊
  inside : ∀ l ∈ lines, swath.spacing / 2 ≤ l - bounds.miny ∧ swath.spacing / 2 ≤ bounds.maxy - l
  /-- the loop is that of the fill, where the polygon is not too small for one -/
  fill : generateBoustrophedonFill geometry mowable swath angleDeg =
    if geometry.isEmpty mowable || geometry.area mowable < 1 then []
    else
      let corner := geometry.bounds mowable
      let waypoints := sweeps geometry (rotatedPolygon geometry mowable angleDeg) bounds true lines
      if angleDeg = 0 then waypoints
      else waypoints.map (rotateBack geometry (corner.minx, corner.miny) angleDeg)

theorem sweepLines_countsSpacings (geometry : Geometry K) (mowable : geometry.Shape)
    (swath : Swath K)
    (angleDeg : K) :
    CountsSpacings geometry mowable swath angleDeg
      (geometry.bounds (rotatedPolygon geometry mowable angleDeg))
      (sweepLines swath (geometry.bounds (rotatedPolygon geometry mowable angleDeg))) := by
  constructor
  · rw [stepsWithin_eq_some_iff swath.spacing_pos]
    refine ⟨by rw [sweepLines, Nat.cast_ofNat], ?_⟩
    rw [← length_sweepLines, sweepLines, Nat.cast_ofNat]
  · exact length_sweepLines
  · exact sweepLines_inside
  · rfl

/-- For every coverage section that the loader accepts, the spacing is at least half the cutting
width, and the loop over the sweep lines of every polygon goes through exactly as many of them as
whole spacings fit into the height. -/
theorem sweepLoop_count {raw : Yaml} {coverage : CoverageParams} {width : ℚ}
    (hcoverage : coerceCoverage raw = .ok coverage)
    (hwidth : coverage.cuttingWidthIn = .fin width) :
    ∃ (swath : Swath K) (overlap : ℚ), swathOf coverage = some swath ∧
      coverage.overlapPct = .fin overlap ∧
      swath.spacing = width * (127 / 5000) * (1 - overlap / 100) ∧
      (width : K) * (127 / 5000) / 2 ≤ swath.spacing ∧ 0 < (width : K) * (127 / 5000) / 2 ∧
      ∀ (geometry : Geometry K) (mowable : geometry.Shape) (angleDeg : K), ∃ lines,
        CountsSpacings geometry mowable swath angleDeg
          (geometry.bounds (rotatedPolygon geometry mowable angleDeg)) lines := by
  obtain ⟨swath, overlap, hswath, hmetres, hoverlap, hpercent⟩ :=
    swathOf_accepted (K := K) hcoverage hwidth
  refine ⟨swath, overlap, hswath, hoverlap, ?_, ?_, ?_, ?_⟩
  · rw [Swath.spacing, hmetres, hpercent]
  · rw [← hmetres]
    exact swath.half_width_le
  · rw [← hmetres]
    exact half_pos swath.width_pos
  · intro geometry mowable angleDeg
    exact ⟨_, sweepLines_countsSpacings geometry mowable swath angleDeg⟩

end Count

/-- Two lines over a strip of three metres, with the default width and overlap. -/
theorem sweepLoop_count_default : ∃ swath : Swath ℚ, swathOf ({} : CoverageParams) = some swath ∧
    swath.spacing = 54 * (127 / 5000) * (9 / 10) ∧ ∃ lines, lines.length = 2 ∧
      CountsSpacings boxes (some (strip 3 (by norm_num))) swath 0 (strip 3 (by norm_num)).bounds
        lines := by
  obtain ⟨swath, overlap, hswath, hoverlap, hspacing, -, -, hcounts⟩ :=
    @sweepLoop_count ℚ _ _ _ _ .null {} 54 rfl rfl
  obtain rfl : 10 = overlap := PyFloat.fin.inj hoverlap
  have hmetres : swath.spacing = 54 * (127 / 5000) * (9 / 10) := by
    rw [hspacing]
    norm_num
  obtain ⟨lines, hlines⟩ := hcounts boxes (some (strip 3 (by norm_num))) 0
  refine ⟨swath, hswath, hmetres, lines, ?_, hlines⟩
  have hheight : (boxes.bounds (rotatedPolygon boxes (some (strip 3 (by norm_num)))
    0)).height = 3 := by
    decide +kernel
  rw [hlines.count, hheight, hmetres, Nat.floor_eq_iff (by norm_num)]
  norm_num

end MowerRover.Zone
