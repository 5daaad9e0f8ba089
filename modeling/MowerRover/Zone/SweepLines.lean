import MowerRover.Zone.Rectangles

/-!
# What the sweep lines cover

Each pass of the mower covers half a cutting width on either side of its line.
The first line is half a spacing above the lowest point, and the last one at
most as far from the highest point as the remainder of the height allows.
-/

namespace MowerRover.Zone

open Numeric

section Cover

variable {K : Type} [Field K] [LinearOrder K] [IsStrictOrderedRing K] [FloorRing K]

def Bounds.height (bounds : Bounds K) : K := bounds.maxy - bounds.miny

/-- There is a line, and no height is farther than half a cutting width from all of them. -/
structure Covers (swath : Swath K) (bounds : Bounds K) (lines : List K) : Prop where
  ne_nil : lines ≠ []
  near : ∀ y ∈ Set.Icc bounds.miny bounds.maxy, ∃ l ∈ lines, |y - l| ≤ swath.width / 2

/-- The lines that are drawn over a polygon. -/
def drawnLines (geometry : Geometry K) (mowable : geometry.Shape) (swath : Swath K) (angleDeg : K) :
    List K :=
  if geometry.isEmpty mowable || geometry.area mowable < 1 then []
  else sweepLines swath (geometry.bounds (rotatedPolygon geometry mowable angleDeg))

theorem generateBoustrophedonFill_eq (geometry : Geometry K) (mowable : geometry.Shape)
    (swath : Swath K) (angleDeg : K) :
    generateBoustrophedonFill geometry mowable swath angleDeg =
      let bounds := geometry.bounds mowable
      let rotated := rotatedPolygon geometry mowable angleDeg
      let waypoints := sweeps geometry rotated (geometry.bounds rotated) true
        (drawnLines geometry mowable swath angleDeg)
      if angleDeg = 0 then waypoints
      else waypoints.map (rotateBack geometry (bounds.minx, bounds.miny) angleDeg) := by
  unfold generateBoustrophedonFill drawnLines
  split_ifs <;> rfl

variable {swath : Swath K} {bounds : Bounds K}

theorem mem_sweepLines {l : K} : l ∈ sweepLines swath bounds ↔ ∃ k : ℕ,
    l = bounds.miny + swath.spacing / 2 + k * swath.spacing ∧
      ((k : K) + 1) * swath.spacing ≤ bounds.height := by
  rw [sweepLines, mem_stepsTo, Nat.cast_ofNat]
  apply exists_congr
  intro k
  apply and_congr_right
  rintro rfl
  unfold Bounds.height
  constructor <;> intro h <;> linarith

theorem sweepLines_ne_nil_iff : sweepLines swath bounds ≠ [] ↔ swath.spacing ≤ bounds.height := by
  constructor
  · intro hne
    obtain ⟨l, hl⟩ := List.exists_mem_of_ne_nil _ hne
    obtain ⟨k, -, hk⟩ := mem_sweepLines.mp hl
    have : 0 ≤ (k : K) * swath.spacing := mul_nonneg k.cast_nonneg swath.spacing_pos.le
    linarith
  · intro h
    exact List.ne_nil_of_mem (mem_sweepLines.mpr ⟨0, rfl, by simpa using h⟩)

theorem sweepLines_dist_top {l : K} (hl : l ∈ sweepLines swath bounds) :
    remainder bounds.height swath.spacing + swath.spacing / 2 ≤ bounds.maxy - l := by
  obtain ⟨k, rfl, hk⟩ := mem_sweepLines.mp hl
  have := step_le_sub_remainder swath.spacing_pos hk
  unfold Bounds.height at this ⊢
  linarith

theorem exists_last_line (h : swath.spacing ≤ bounds.height) : ∃ l ∈ sweepLines swath bounds,
    bounds.maxy - l = remainder bounds.height swath.spacing + swath.spacing / 2 := by
  obtain ⟨k, hk⟩ := exists_last_step swath.spacing_pos h
  refine ⟨_, mem_sweepLines.mpr ⟨k, rfl, ?_⟩, ?_⟩
  · have : 0 ≤ remainder bounds.height swath.spacing := remainder_nonneg swath.spacing_pos
    linarith
  · unfold Bounds.height at hk ⊢
    linarith

/-- Below the last line no height is farther than half a spacing from a line. -/
theorem exists_near_line {y : K} (hlo : bounds.miny ≤ y)
    (hhi : y < bounds.maxy - remainder bounds.height swath.spacing) :
    ∃ l ∈ sweepLines swath bounds, |y - l| ≤ swath.spacing / 2 := by
  have hpos := swath.spacing_pos
  -- the line in the middle of the strip that the height is in
  obtain ⟨k, hk⟩ := Int.eq_ofNat_of_zero_le
    (Int.floor_nonneg.mpr (div_nonneg (sub_nonneg.mpr hlo) hpos.le))
  have hfloor := Int.floor_le ((y - bounds.miny) / swath.spacing)
  have hnext := Int.lt_floor_add_one ((y - bounds.miny) / swath.spacing)
  rw [hk, Int.cast_natCast, le_div_iff₀ hpos] at hfloor
  rw [hk, Int.cast_natCast, div_lt_iff₀ hpos] at hnext
  refine ⟨_, mem_sweepLines.mpr ⟨k, rfl, ?_⟩, ?_⟩
  · rw [step_le_iff hpos]
    have hlt : (k : K) < ⌊bounds.height / swath.spacing⌋ := by
      apply lt_of_mul_lt_mul_right _ hpos.le
      unfold remainder Bounds.height at hhi
      unfold Bounds.height
      linarith
    have : (k : ℤ) < ⌊bounds.height / swath.spacing⌋ := by exact_mod_cast hlt
    omega
  · rw [abs_le]
    constructor <;> linarith

/-- Everything is covered when there is a line and the remainder is not more than what the
overlap leaves of half a cutting width. -/
theorem covers_sweepLines_iff : Covers swath bounds (sweepLines swath bounds) ↔
    swath.spacing ≤ bounds.height ∧
      remainder bounds.height swath.spacing ≤ (swath.width - swath.spacing) / 2 := by
  have hsplit : Covers swath bounds (sweepLines swath bounds) ↔ swath.spacing ≤ bounds.height ∧
      ∀ y ∈ Set.Icc bounds.miny bounds.maxy, ∃ l ∈ sweepLines swath bounds,
        |y - l| ≤ swath.width / 2 := by
    rw [← sweepLines_ne_nil_iff]
    exact ⟨fun h => ⟨h.ne_nil, h.near⟩, fun h => ⟨h.1, h.2⟩⟩
  rw [hsplit]
  apply and_congr_right
  intro h
  have hnonneg : 0 ≤ remainder bounds.height swath.spacing := remainder_nonneg swath.spacing_pos
  constructor
  · intro hall
    have hpos := swath.spacing_pos
    obtain ⟨l, hl, hnear⟩ := hall bounds.maxy ⟨by unfold Bounds.height at h; linarith, le_rfl⟩
    have hfar := sweepLines_dist_top hl
    have := (abs_le.mp hnear).2
    linarith
  · rintro hremainder y ⟨hlo, hhi⟩
    rcases lt_or_ge y (bounds.maxy - remainder bounds.height swath.spacing) with hlow | hhigh
    · obtain ⟨l, hl, hnear⟩ := exists_near_line hlo hlow
      have := swath.spacing_le
      exact ⟨l, hl, by linarith⟩
    · obtain ⟨l, hl, hlast⟩ := exists_last_line h
      have hpos := swath.spacing_pos
      refine ⟨l, hl, ?_⟩
      rw [abs_le]
      constructor <;> linarith

/-- The fill goes along the drawn lines, and these cover the height of the polygon exactly when the
height is at least one spacing and what is left of it after whole spacings is at most half the
overlap. -/
theorem drawnLines_covers_iff (geometry : Geometry K) (mowable : geometry.Shape) (swath : Swath K)
    (angleDeg : K) (hempty : geometry.isEmpty mowable = false) (harea : 1 ≤ geometry.area mowable) :
    (generateBoustrophedonFill geometry mowable swath angleDeg =
      let bounds := geometry.bounds mowable
      let rotated := rotatedPolygon geometry mowable angleDeg
      let waypoints := sweeps geometry rotated (geometry.bounds rotated) true
        (drawnLines geometry mowable swath angleDeg)
      if angleDeg = 0 then waypoints
      else waypoints.map (rotateBack geometry (bounds.minx, bounds.miny) angleDeg)) ∧
    (Covers swath (geometry.bounds (rotatedPolygon geometry mowable angleDeg))
        (drawnLines geometry mowable swath angleDeg) ↔
      swath.spacing ≤ (geometry.bounds (rotatedPolygon geometry mowable angleDeg)).height ∧
        remainder (geometry.bounds (rotatedPolygon geometry mowable angleDeg)).height
          swath.spacing ≤
          (swath.width - swath.spacing) / 2) := by
  have hdrawn : ¬ (geometry.isEmpty mowable || geometry.area mowable < 1) = true := by
    simpa [hempty] using harea
  refine ⟨generateBoustrophedonFill_eq geometry mowable swath angleDeg, ?_⟩
  rw [drawnLines, if_neg hdrawn]
  exact covers_sweepLines_iff

end Cover

/-- A cutting width of one metre. -/
def metreWide (overlap : ℚ) (h : 0 ≤ overlap ∧ overlap ≤ 50) : Swath ℚ where
  width := 1
  overlap := overlap
  width_pos := one_pos
  overlap_nonneg := h.1
  overlap_le := h.2

/-- Without an overlap. -/
def metreSwath : Swath ℚ := metreWide 0 (by norm_num)

/-- A strip of ten metres by this height. -/
def strip (height : ℚ) (h : 0 < height) : Rect ℚ where
  left := 0
  bottom := 0
  right := 10
  top := height
  width_pos := by norm_num
  height_pos := h

theorem metreSwath_spacing : metreSwath.spacing = 1 := by
  norm_num [Swath.spacing, metreSwath, metreWide]

theorem drawnLines_covers_three : Covers metreSwath (strip 3 (by norm_num)).bounds
    (drawnLines boxes (some (strip 3 (by norm_num))) metreSwath 0) := by
  apply (drawnLines_covers_iff boxes (some (strip 3 (by norm_num))) metreSwath 0 rfl
    (by decide +kernel)).2.mpr
  rw [metreSwath_spacing]
  have hheight : (boxes.bounds (rotatedPolygon boxes (some (strip 3 (by norm_num)))
    0)).height = 3 := by
    decide +kernel
  rw [hheight]
  norm_num [remainder, metreSwath, metreWide]

/-- Of a strip of nineteen square metres a tenth of the height is not covered, below its upper edge.
-/
theorem drawnLines_leave_strip :
    1 ≤ boxes.area (some (strip (19 / 10) (by norm_num))) ∧
    ¬ Covers metreSwath (strip (19 / 10) (by norm_num)).bounds
      (drawnLines boxes (some (strip (19 / 10) (by norm_num))) metreSwath 0) := by
  have hdrawn : drawnLines boxes (some (strip (19 / 10) (by norm_num))) metreSwath 0 =
      sweepLines metreSwath (strip (19 / 10) (by norm_num)).bounds := if_neg (by decide +kernel)
  refine ⟨by decide +kernel, ?_⟩
  rw [hdrawn, covers_sweepLines_iff, metreSwath_spacing]
  rintro ⟨-, hremainder⟩
  have hheight : (strip (19 / 10) (by norm_num)).bounds.height = 19 / 10 := by decide +kernel
  rw [hheight] at hremainder
  norm_num [remainder, metreSwath, metreWide] at hremainder

end MowerRover.Zone
