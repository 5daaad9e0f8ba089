import MowerRover.Zone.SweepLines

/-!
# Between the headlands and the fill

On a rectangular lawn the passes and the sweeps are parallel to one side. The
passes are one spacing apart from the edge on. The fill starts where one more
pass would be and keeps half a spacing from there, so that the first sweep is
one spacing and a half from the last pass.
-/

namespace MowerRover.Zone

open Numeric

section Gap

variable {K : Type} [Field K] [LinearOrder K] [IsStrictOrderedRing K] [FloorRing K]

/-- Neighbours among the offsets are no farther apart than the cutting width. -/
def NoGap (swath : Swath K) (offsets : List K) : Prop :=
  ∀ u ∈ offsets, ∀ v ∈ offsets, u < v → (∀ w ∈ offsets, w ≤ u ∨ v ≤ w) → v - u ≤ swath.width

/-- How far from the bottom of the lawn the passes and the sweeps that are parallel to it are. -/
def parallelOffsets (geometry : Geometry K) (lawn : Rect K) (swath : Swath K) (headlandPasses : ℤ) :
    List K :=
  let passes := generateHeadlandPasses geometry lawn.corners [] swath headlandPasses
  let inner := innermostPolygon geometry lawn.corners [] swath headlandPasses
  let lines := if passes.isEmpty || geometry.isEmpty inner || geometry.area inner ≤ 1 then []
    else drawnLines geometry inner swath 0
  (passes.flatMap horizontals ++ lines).map (· - lawn.bottom)

/-- The lawn has room for these passes, and more than one square metre is left for the fill. -/
structure FitsFill (lawn : Rect K) (swath : Swath K) (headlandPasses : ℕ) : Prop where
  room : lawn.HasRoom (headlandPasses * swath.spacing)
  left : 1 < (lawn.width - 2 * (headlandPasses * swath.spacing)) *
    (lawn.height - 2 * (headlandPasses * swath.spacing))

section Passes

variable {geometry : Geometry K} {shape : Rect K → geometry.Shape} {swath : Swath K} {lawn : Rect K}
  {n : ℕ}

theorem FitsFill.area (h : FitsFill lawn swath n) : 1 ≤ lawn.width * lawn.height := by
  have hnonneg : 0 ≤ 2 * ((n : K) * swath.spacing) :=
    mul_nonneg zero_le_two (mul_nonneg n.cast_nonneg swath.spacing_pos.le)
  obtain ⟨⟨hwidth, hheight⟩, harea⟩ := h
  calc 1 ≤ (lawn.width - 2 * (n * swath.spacing)) * (lawn.height - 2 * (n * swath.spacing)) :=
    harea.le
    _ ≤ lawn.width * lawn.height := by
      apply mul_le_mul <;> linarith

omit [FloorRing K] in
theorem FitsFill.hasRoom (h : FitsFill lawn swath (n + 1)) : lawn.HasRoom swath.spacing := by
  apply h.room.mono
  have := mul_nonneg (n.cast_nonneg (α := K)) swath.spacing_pos.le
  push_cast
  linarith

omit [FloorRing K] in
theorem FitsFill.inset (h : FitsFill lawn swath (n + 1)) :
    FitsFill (lawn.inset swath.spacing h.hasRoom) swath n := by
  obtain ⟨⟨hwidth, hheight⟩, harea⟩ := h
  push_cast at hwidth hheight harea
  constructor
  · constructor
    · rw [Rect.inset_width]
      linarith
    · rw [Rect.inset_height]
      linarith
  rw [Rect.inset_width, Rect.inset_height]
  calc 1 < (lawn.width - 2 * ((n + 1) * swath.spacing)) *
          (lawn.height - 2 * ((n + 1) * swath.spacing)) := harea
    _ = _ := by ring

/-- The edges of the passes, from outside to inside. -/
theorem mem_headlandRounds (hshape : InsetsRectangles geometry shape) (h : FitsFill lawn swath n)
    (y : K) : y ∈ (headlandRounds geometry swath.spacing n (shape lawn)).flatMap horizontals ↔
      ∃ i < n, y = lawn.bottom + i * swath.spacing ∨ y = lawn.top - i * swath.spacing := by
  induction n generalizing lawn with
  | zero => simp [headlandRounds]
  | succ n ih =>
    obtain ⟨exterior, area, hparts, hne, hhorizontals⟩ := hshape.parts lawn
    have hgo : ¬ (geometry.isEmpty (shape lawn) || geometry.area (shape lawn) < 1) = true := by
      simpa [hshape.isEmpty, hshape.area] using h.area
    have hrings : (Parts.polygon ⟨exterior, [], area⟩ : Parts K).rings = [exterior] := by
      simp [Parts.rings, PolygonPart.rings, hne]
    rw [headlandRounds, if_neg hgo, hparts, hrings, hshape.buffer lawn swath.spacing h.hasRoom
      swath.spacing_pos]
    dsimp only
    rw [hshape.isEmpty, if_neg (by simp), List.flatMap_append, List.mem_append, ih h.inset,
      List.flatMap_singleton, hhorizontals]
    simp only [Rect.inset_bottom, Rect.inset_top]
    constructor
    · rintro (hy | ⟨i, hi, hy⟩)
      · exact ⟨0, n.succ_pos, by simpa using hy⟩
      · refine ⟨i + 1, by omega, hy.imp (fun h => ?_) fun h => ?_⟩ <;> (rw [h]; push_cast; ring)
    · rintro ⟨i, hi, hy⟩
      cases i with
      | zero => exact .inl (by simpa using hy)
      | succ i =>
        refine .inr ⟨i, by omega, hy.imp (fun h => ?_) fun h => ?_⟩ <;> (rw [h]; push_cast; ring)

/-- The fill gets the rectangle that all passes leave. -/
theorem innermost_rect (hshape : InsetsRectangles geometry shape) (h : FitsFill lawn swath n) :
    ∃ inner : Rect K, innermost geometry swath.spacing n (shape lawn) = shape inner ∧
      1 < inner.width * inner.height ∧ inner.bottom = lawn.bottom + n * swath.spacing ∧
        inner.top = lawn.top - n * swath.spacing := by
  induction n generalizing lawn with
  | zero =>
    refine ⟨lawn, rfl, ?_, by simp, by simp⟩
    simpa using h.left
  | succ n ih =>
    obtain ⟨inner, hinner, harea, hbottom, htop⟩ := ih h.inset
    refine ⟨inner, ?_, harea, ?_, ?_⟩
    · rw [innermost, hshape.buffer lawn swath.spacing h.hasRoom swath.spacing_pos, hshape.isEmpty,
        if_neg (by simp), hinner]
    · rw [hbottom, Rect.inset_bottom]
      push_cast
      ring
    · rw [htop, Rect.inset_top]
      push_cast
      ring

theorem headlandRounds_ne_nil (hshape : InsetsRectangles geometry shape) (hn : 1 ≤ n)
    (h : FitsFill lawn swath n) : headlandRounds geometry swath.spacing n (shape lawn) ≠ [] := by
  intro hnil
  have hedge := (mem_headlandRounds hshape h lawn.bottom).mpr ⟨0, hn, by simp⟩
  rw [hnil] at hedge
  simp at hedge

/-- The passes are spacings apart from below and from above, and the sweeps from half a spacing
inside the last pass but one spacing. -/
theorem mem_parallelOffsets (hshape : InsetsRectangles geometry shape) (hn : 1 ≤ n)
    (h : FitsFill lawn swath n) (y : K) : y ∈ parallelOffsets geometry lawn swath n ↔
      (∃ i < n, y = i * swath.spacing ∨ y = lawn.height - i * swath.spacing) ∨
        ∃ k : ℕ, y = n * swath.spacing + swath.spacing / 2 + k * swath.spacing ∧
          ((k : K) + 1) * swath.spacing ≤ lawn.height - 2 * (n * swath.spacing) := by
  obtain ⟨inner, hinner, harea, hbottom, htop⟩ := innermost_rect hshape h
  have hpasses : generateHeadlandPasses geometry lawn.corners [] swath n =
      headlandRounds geometry swath.spacing n (shape lawn) := by
    have hpos : ¬ (n : ℤ) ≤ 0 := by omega
    have hfixed : headlandArea geometry lawn.corners [] = shape lawn := by
      rw [headlandArea, List.foldl_nil, hshape.polygon, fixed, hshape.isValid, if_pos rfl]
    rw [generateHeadlandPasses, if_neg hpos, hfixed]
    dsimp only
    rw [hshape.isEmpty, if_neg (by simp), Int.toNat_natCast]
  have hfill : innermostPolygon geometry lawn.corners [] swath n = shape inner := by
    rw [innermostPolygon, fillArea, List.foldl_nil, hshape.polygon, Int.toNat_natCast, hinner]
  have hguard : ¬ ((headlandRounds geometry swath.spacing n (shape lawn)).isEmpty ||
      geometry.isEmpty (shape inner) || geometry.area (shape inner) ≤ 1) = true := by
    simpa [hshape.isEmpty, hshape.area, headlandRounds_ne_nil hshape hn h] using harea
  have hdrawn : drawnLines geometry (shape inner) swath 0 = sweepLines swath inner.bounds := by
    have hgo : ¬ (geometry.isEmpty (shape inner) || geometry.area (shape inner) < 1) = true := by
      simpa [hshape.isEmpty, hshape.area] using harea.le
    rw [drawnLines, if_neg hgo, rotatedPolygon, neg_zero, hshape.rotate, hshape.bounds]
  have hheight : inner.bounds.height = lawn.height - 2 * (n * swath.spacing) := by
    unfold Bounds.height Rect.height Rect.bounds
    dsimp only
    rw [hbottom, htop]
    ring
  unfold parallelOffsets
  dsimp only
  rw [hpasses, hfill, if_neg hguard, hdrawn, List.mem_map]
  simp only [List.mem_append, mem_headlandRounds hshape h, mem_sweepLines, hheight]
  have hminy : inner.bounds.miny = lawn.bottom + n * swath.spacing := hbottom
  constructor
  · rintro ⟨z, ⟨i, hi, rfl | rfl⟩ | ⟨k, rfl, hk⟩, rfl⟩
    · exact .inl ⟨i, hi, .inl (by ring)⟩
    · exact .inl ⟨i, hi, .inr (by unfold Rect.height; ring)⟩
    · exact .inr ⟨k, by rw [hminy]; ring, hk⟩
  · rintro (⟨i, hi, rfl | rfl⟩ | ⟨k, rfl, hk⟩)
    · exact ⟨_, .inl ⟨i, hi, .inl rfl⟩, by ring⟩
    · exact ⟨_, .inl ⟨i, hi, .inr rfl⟩, by unfold Rect.height; ring⟩
    · exact ⟨_, .inr ⟨k, rfl, hk⟩, by rw [hminy]; ring⟩

end Passes

section Offsets

variable {swath : Swath K} {offsets : List K} {n : ℕ} {height : K}

omit [FloorRing K] in
theorem noGap_of_next (h : ∀ u ∈ offsets, (∀ v ∈ offsets, v ≤ u) ∨
    ∃ w ∈ offsets, u < w ∧ w - u ≤ swath.width) : NoGap swath offsets := by
  intro u hu v hv huv hbetween
  rcases h u hu with hlast | ⟨w, hw, huw, hnear⟩
  · exact absurd (hlast v hv) (not_le.mpr huv)
  · rcases hbetween w hw with hle | hle
    · exact absurd hle (not_le.mpr huw)
    · linarith

/-- Offsets of `n` passes from either side and of the sweeps that fit between them. -/
structure IsComb (swath : Swath K) (n : ℕ) (height : K) (offsets : List K) : Prop where
  mem_iff : ∀ y, y ∈ offsets ↔
    (∃ i < n, y = i * swath.spacing ∨ y = height - i * swath.spacing) ∨
      ∃ k : ℕ, y = n * swath.spacing + swath.spacing / 2 + k * swath.spacing ∧
        ((k : K) + 1) * swath.spacing ≤ height - 2 * (n * swath.spacing)

section Comb

variable (h : IsComb swath n height offsets)
include h

omit [IsStrictOrderedRing K] [FloorRing K] in
theorem IsComb.below {i : ℕ} (hi : i < n) : i * swath.spacing ∈ offsets :=
  (h.mem_iff _).mpr (.inl ⟨i, hi, .inl rfl⟩)

omit [IsStrictOrderedRing K] [FloorRing K] in
theorem IsComb.above {i : ℕ} (hi : i < n) : height - i * swath.spacing ∈ offsets :=
  (h.mem_iff _).mpr (.inl ⟨i, hi, .inr rfl⟩)

omit [IsStrictOrderedRing K] [FloorRing K] in
theorem IsComb.sweep {k : ℕ} (hk : ((k : K) + 1) * swath.spacing ≤
    height - 2 * (n * swath.spacing)) :
    n * swath.spacing + swath.spacing / 2 + k * swath.spacing ∈ offsets :=
  (h.mem_iff _).mpr (.inr ⟨k, rfl, hk⟩)

theorem IsComb.le_height (hroom : 0 ≤ height - 2 * (n * swath.spacing)) :
    ∀ y ∈ offsets, y ≤ height := by
  have hpos := swath.spacing_pos
  have hn : 0 ≤ (n : K) * swath.spacing := mul_nonneg n.cast_nonneg hpos.le
  intro y hy
  rcases (h.mem_iff y).mp hy with ⟨i, hi, rfl | rfl⟩ | ⟨k, rfl, hk⟩
  · have hin : (i : K) ≤ n := by exact_mod_cast hi.le
    have := mul_le_mul_of_nonneg_right hin hpos.le
    linarith
  · have : 0 ≤ (i : K) * swath.spacing := mul_nonneg i.cast_nonneg hpos.le
    linarith
  · linarith

/-- From every offset but the last there is another one within the cutting width. -/
theorem IsComb.noGap (hn : 1 ≤ n) (hroom : swath.spacing ≤ height - 2 * (n * swath.spacing))
    (hremainder : remainder (height - 2 * (n * swath.spacing)) swath.spacing ≤
      swath.width - 3 / 2 * swath.spacing) : NoGap swath offsets := by
  have hpos := swath.spacing_pos
  have hnonneg : 0 ≤ remainder (height - 2 * (n * swath.spacing)) swath.spacing :=
    remainder_nonneg hpos
  obtain ⟨m, rfl⟩ := Nat.exists_eq_add_of_le' hn
  apply noGap_of_next
  intro u hu
  rcases (h.mem_iff u).mp hu with ⟨i, hi, rfl | rfl⟩ | ⟨k, rfl, hk⟩
  · right
    rcases Nat.lt_or_eq_of_le hi with hmore | hlast
    · refine ⟨_, h.below hmore, ?_, ?_⟩ <;> (push_cast; linarith)
    -- from the last pass to the first sweep
    · refine ⟨_, h.sweep (k := 0) (by push_cast at hroom ⊢; linarith), ?_, ?_⟩ <;>
        (rw [← hlast]; push_cast; linarith)
  · cases i with
    | zero =>
      left
      rw [Nat.cast_zero, zero_mul, sub_zero]
      exact h.le_height (hpos.le.trans hroom)
    | succ i =>
      right
      refine ⟨_, h.above (Nat.lt_of_succ_lt hi), ?_, ?_⟩ <;> (push_cast; linarith)
  · right
    by_cases hnext : ((k + 1 : ℕ) + 1 : K) * swath.spacing ≤
      height - 2 * ((m + 1 : ℕ) * swath.spacing)
    · refine ⟨_, h.sweep hnext, ?_, ?_⟩ <;> (push_cast; linarith)
    -- from the last sweep to the pass above it
    · rw [remainder_eq hpos hk hnext] at hremainder hnonneg
      push_cast at hremainder hnonneg
      refine ⟨_, h.above m.lt_succ_self, ?_, ?_⟩ <;> (push_cast; linarith)

theorem IsComb.of_noGap (hn : 1 ≤ n) (hheight : 0 < height - 2 * (n * swath.spacing))
    (hgap : NoGap swath offsets) :
    swath.spacing ≤ height - 2 * (n * swath.spacing) ∧
      remainder (height - 2 * (n * swath.spacing)) swath.spacing ≤
        swath.width - 3 / 2 * swath.spacing := by
  have hpos := swath.spacing_pos
  obtain ⟨m, rfl⟩ := Nat.exists_eq_add_of_le' hn
  push_cast at hheight ⊢
  have hle : ∀ i < m + 1, (i : K) * swath.spacing ≤ m * swath.spacing := by
    intro i hi
    have him : (i : K) ≤ m := by exact_mod_cast Nat.lt_succ_iff.mp hi
    exact mul_le_mul_of_nonneg_right him hpos.le
  have hbelow := h.below m.lt_succ_self
  have habove := h.above m.lt_succ_self
  have hroom : swath.spacing ≤ height - 2 * ((m + 1) * swath.spacing) := by
    by_contra hlt
    -- without a sweep the two last passes are neighbours
    have hwide := hgap _ hbelow _ habove (by linarith) fun w hw => by
      rcases (h.mem_iff w).mp hw with ⟨i, hi, rfl | rfl⟩ | ⟨k, rfl, hk⟩
      · exact .inl (hle i hi)
      · exact .inr (by linarith [hle i hi])
      · have : 0 ≤ (k : K) * swath.spacing := mul_nonneg k.cast_nonneg hpos.le
        push_cast at hk
        exact absurd (by linarith) hlt
    have := swath.half_width_le
    linarith
  refine ⟨hroom, ?_⟩
  obtain ⟨k, hk⟩ := exists_last_step hpos hroom
  have hnonneg : 0 ≤ remainder (height - 2 * ((m + 1) * swath.spacing)) swath.spacing :=
    remainder_nonneg hpos
  have hlast := h.sweep (k := k) (by push_cast; linarith)
  have hwide := hgap _ hlast _ habove (by push_cast; linarith) fun w hw => by
    have hk0 : 0 ≤ (k : K) * swath.spacing := mul_nonneg k.cast_nonneg hpos.le
    rcases (h.mem_iff w).mp hw with ⟨i, hi, rfl | rfl⟩ | ⟨k', rfl, hk'⟩
    · refine .inl ?_
      have := hle i hi
      push_cast
      linarith
    · exact .inr (by linarith [hle i hi])
    · refine .inl ?_
      push_cast at hk'
      have := step_le_sub_remainder hpos hk'
      linarith
  push_cast at hwide
  linarith

end Comb

end Offsets

/-- On a rectangular lawn with room for the passes and a fill, no strip wider than the cutting
width is left between neighbours exactly when the height inside the passes is at least one spacing
and what is left of it after whole spacings is at most the cutting width less one and a half. -/
theorem parallelOffsets_noGap_iff (geometry : Geometry K) (shape : Rect K → geometry.Shape)
    (hshape : InsetsRectangles geometry shape) (lawn : Rect K) (swath : Swath K) (n : ℕ)
    (hn : 1 ≤ n)
    (hfits : FitsFill lawn swath n) :
    NoGap swath (parallelOffsets geometry lawn swath n) ↔
      swath.spacing ≤ lawn.height - 2 * (n * swath.spacing) ∧
        remainder (lawn.height - 2 * (n * swath.spacing)) swath.spacing ≤
          swath.width - 3 / 2 * swath.spacing := by
  have hcomb : IsComb swath n lawn.height (parallelOffsets geometry lawn swath n) :=
    ⟨mem_parallelOffsets hshape hn hfits⟩
  constructor
  · exact hcomb.of_noGap hn (sub_pos.mpr hfits.room.along)
  · rintro ⟨hroom, hremainder⟩
    exact hcomb.noGap hn hroom hremainder

end Gap

/-- A square lawn. -/
def square (side : ℚ) (h : 0 < side) : Rect ℚ := ⟨0, 0, side, side, h, h⟩

/-- A half of the cutting width overlaps. -/
def halfSwath : Swath ℚ := metreWide 50 (by norm_num)

theorem halfSwath_spacing : halfSwath.spacing = 1 / 2 := by
  norm_num [Swath.spacing, halfSwath, metreWide]

theorem square_fitsFill {side : ℚ} {h : 0 < side} {swath : Swath ℚ} (hspacing : swath.spacing ≤ 1)
    (hside : 4 ≤ side) : FitsFill (square side h) swath 1 := by
  have hwidth : (square side h).width = side := sub_zero side
  have hheight : (square side h).height = side := sub_zero side
  constructor
  · constructor
    · rw [hwidth]
      push_cast
      linarith
    · rw [hheight]
      push_cast
      linarith
  rw [hwidth, hheight]
  push_cast
  nlinarith

theorem parallelOffsets_noGap_eleven : NoGap halfSwath
    (parallelOffsets boxes (square 11 (by norm_num)) halfSwath (1 : ℕ)) := by
  apply (parallelOffsets_noGap_iff boxes some boxes_insetsRectangles (square 11 (by norm_num))
    halfSwath 1 le_rfl (square_fitsFill (by norm_num [halfSwath_spacing]) (by norm_num))).mpr
  rw [halfSwath_spacing]
  norm_num [Rect.height, square, remainder, halfSwath, metreWide]

/-- Without an overlap there is a strip of half a metre between the pass and the first sweep. -/
theorem parallelOffsets_gap_twelve : FitsFill (square 12 (by norm_num)) metreSwath 1 ∧
    ¬ NoGap metreSwath (parallelOffsets boxes (square 12 (by norm_num)) metreSwath (1 : ℕ)) := by
  have hfits : FitsFill (square 12 (by norm_num)) metreSwath 1 :=
    square_fitsFill (by norm_num [metreSwath_spacing]) (by norm_num)
  refine ⟨hfits, fun hgap => ?_⟩
  have hcomb : IsComb metreSwath 1 (square 12 (by norm_num)).height
      (parallelOffsets boxes (square 12 (by norm_num)) metreSwath (1 : ℕ)) :=
    ⟨mem_parallelOffsets boxes_insetsRectangles le_rfl hfits⟩
  obtain ⟨-, hremainder⟩ := hcomb.of_noGap le_rfl (sub_pos.mpr hfits.room.along) hgap
  rw [metreSwath_spacing] at hremainder
  norm_num [Rect.height, square, remainder, metreSwath, metreWide] at hremainder

end MowerRover.Zone
