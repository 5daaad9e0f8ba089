import MowerRover.Zone.SweepLines
import MowerRover.Zone.ExactShapely

/-!
# The order of the sweeps

Every second sweep goes from the right to the left. A line that is cut into
several pieces is turned around by the planner, one that is left in one piece is
not: the first is right when Shapely gives pieces from left to right, the second
when it gives them along the line.
-/

namespace MowerRover.Zone

open Numeric

section Order

variable {K : Type}

section Ways

variable [LinearOrder K]

def GoesRight (coords : List (K × K)) : Prop := coords.Pairwise fun a b => a.1 ≤ b.1

def GoesLeft (coords : List (K × K)) : Prop := coords.Pairwise fun a b => b.1 ≤ a.1

theorem goesLeft_reverse {coords : List (K × K)} : GoesLeft coords.reverse ↔ GoesRight coords :=
  List.pairwise_reverse

theorem not_goesLeft {coords : List (K × K)} (hright : GoesRight coords)
    (hlong : ∃ a ∈ coords, ∃ b ∈ coords, a.1 ≠ b.1) : ¬ GoesLeft coords := by
  intro hleft
  obtain ⟨a, ha, b, hb, hne⟩ := hlong
  have hsame : coords.Pairwise fun a b => a.1 = b.1 :=
    hright.imp₂ (fun _ _ => le_antisymm) hleft
  have hsymm : Std.Symm fun a b : K × K => a.1 = b.1 := ⟨fun _ _ h => h.symm⟩
  exact hne (hsame.forall_of_forall (R := fun a b => a.1 = b.1) (fun _ _ => rfl) ha hb)

end Ways

/-- The pieces of a line, each with its coordinates. -/
def Clipped.pieces : Clipped K → List (List (K × K))
  | .lineString coords => [coords]
  | .multiLineString segments => segments
  | .empty | .other => []

def Clipped.IsSingle : Clipped K → Prop
  | .lineString _ => True
  | _ => False

def Clipped.IsMulti : Clipped K → Prop
  | .multiLineString segments => segments ≠ []
  | _ => False

instance (clipped : Clipped K) : Decidable clipped.IsSingle :=
  match clipped with
  | .lineString _ => isTrue trivial
  | .multiLineString _ | .empty | .other => isFalse id

instance (clipped : Clipped K) : Decidable clipped.IsMulti :=
  match clipped with
  | .multiLineString segments => inferInstanceAs (Decidable (segments ≠ []))
  | .lineString _ | .empty | .other => isFalse id

section Conventions

variable [LinearOrder K]

/-- What both conventions have in common: a shape has a width, and a piece of a line a length. -/
structure ClipsLines (geometry : Geometry K) : Prop where
  bounds_le : ∀ s angleDeg origin, geometry.isEmpty s = false →
    (geometry.bounds (geometry.rotate s angleDeg origin)).minx ≤
      (geometry.bounds (geometry.rotate s angleDeg origin)).maxx
  long : ∀ s start stop, start.2 = stop.2 → start.1 ≠ stop.1 →
    ∀ piece ∈ (geometry.intersection s start stop).pieces, ∃ a ∈ piece, ∃ b ∈ piece, a.1 ≠ b.1

/-- Pieces come in the order in which the line meets them, and go along it. -/
structure AlongLine (geometry : Geometry K) : Prop extends ClipsLines geometry where
  rightwards : ∀ s start stop, start.2 = stop.2 → start.1 < stop.1 →
    GoesRight (geometry.intersection s start stop).coords
  leftwards : ∀ s start stop, start.2 = stop.2 → stop.1 < start.1 →
    GoesLeft (geometry.intersection s start stop).coords

/-- Pieces come from the left to the right, whichever way the line goes. -/
structure LeftToRight (geometry : Geometry K) : Prop extends ClipsLines geometry where
  rightwards : ∀ s start stop, start.2 = stop.2 → start.1 ≠ stop.1 →
    GoesRight (geometry.intersection s start stop).coords

end Conventions

theorem Clipped.long {clipped : Clipped K} (hmulti : clipped.IsSingle ∨ clipped.IsMulti)
    (hlong : ∀ piece ∈ clipped.pieces, ∃ a ∈ piece, ∃ b ∈ piece, a.1 ≠ b.1) :
    ∃ a ∈ clipped.coords, ∃ b ∈ clipped.coords, a.1 ≠ b.1 := by
  cases clipped with
  | lineString coords => exact hlong coords List.mem_cons_self
  | multiLineString segments =>
    have hne : segments ≠ [] := hmulti.resolve_left id
    obtain ⟨piece, hpiece⟩ := List.exists_mem_of_ne_nil _ hne
    obtain ⟨a, ha, b, hb, hab⟩ := hlong piece hpiece
    have hmem : ∀ p ∈ piece, p ∈ segments.flatten := fun p hp =>
      List.mem_flatten.mpr ⟨piece, hpiece, hp⟩
    exact ⟨a, hmem a ha, b, hmem b hb, hab⟩
  | empty => exact (hmulti.elim id id).elim
  | other => exact (hmulti.elim id id).elim

theorem Clipped.coords_eq_nil {clipped : Clipped K} (hsingle : ¬ clipped.IsSingle)
    (hmulti : ¬ clipped.IsMulti) : clipped.coords = [] := by
  cases clipped with
  | lineString coords => exact absurd trivial hsingle
  | multiLineString segments =>
    have hnil : segments = [] := not_not.mp hmulti
    rw [hnil]
    rfl
  | empty => rfl
  | other => rfl

section Sweep

variable [Field K] (geometry : Geometry K) (rotated : geometry.Shape) (bounds : Bounds K)

/-- The cut line of a sweep. -/
def sweepClip (leftToRight : Bool) (y : K) : Clipped K :=
  geometry.intersection rotated
    (if leftToRight then (bounds.minx - (10 : ℕ), y) else (bounds.maxx + (10 : ℕ), y))
    (if leftToRight then (bounds.maxx + (10 : ℕ), y) else (bounds.minx - (10 : ℕ), y))

variable {geometry rotated bounds} {y : K}

theorem sweepCoords_left :
    sweepCoords geometry rotated bounds true y =
      (sweepClip geometry rotated bounds true y).coords := by
  unfold sweepCoords sweepClip
  simp only [Nat.cast_ofNat]
  cases geometry.intersection rotated _ _ <;> rfl

theorem sweepCoords_right_single (h : (sweepClip geometry rotated bounds false y).IsSingle) :
    sweepCoords geometry rotated bounds false y =
      (sweepClip geometry rotated bounds false y).coords := by
  unfold sweepCoords
  unfold sweepClip at h ⊢
  simp only [Nat.cast_ofNat] at h ⊢
  cases hclip : geometry.intersection rotated _ _ with
  | lineString coords => rfl
  | _ =>
    rw [hclip] at h
    exact h.elim

theorem sweepCoords_right_multi (h : ¬ (sweepClip geometry rotated bounds false y).IsSingle) :
    sweepCoords geometry rotated bounds false y =
      (sweepClip geometry rotated bounds false y).coords.reverse := by
  unfold sweepCoords
  unfold sweepClip at h ⊢
  simp only [Nat.cast_ofNat] at h ⊢
  cases hclip : geometry.intersection rotated _ _ with
  | lineString coords =>
    rw [hclip] at h
    exact absurd trivial h
  | multiLineString segments =>
    show (segments.reverse.map List.reverse).flatten = segments.flatten.reverse
    rw [List.reverse_flatten, List.map_reverse]
  | empty => rfl
  | other => rfl

variable [LinearOrder K] [IsStrictOrderedRing K]

theorem ClipsLines.long_sweep (h : ClipsLines geometry) (hbounds : bounds.minx ≤ bounds.maxx)
    {leftToRight : Bool}
    (hmulti : (sweepClip geometry rotated bounds leftToRight y).IsSingle ∨
      (sweepClip geometry rotated bounds leftToRight y).IsMulti) :
    ∃ a ∈ (sweepClip geometry rotated bounds leftToRight y).coords,
      ∃ b ∈ (sweepClip geometry rotated bounds leftToRight y).coords, a.1 ≠ b.1 := by
  have hline : bounds.minx - 10 < bounds.maxx + 10 := by linarith
  apply Clipped.long hmulti
  cases leftToRight
  · exact h.long _ _ _ rfl (by simpa using hline.ne')
  · exact h.long _ _ _ rfl (by simpa using hline.ne)

theorem AlongLine.clip_goesRight (h : AlongLine geometry) (hbounds : bounds.minx ≤ bounds.maxx) :
    GoesRight (sweepClip geometry rotated bounds true y).coords := by
  have hline : bounds.minx - 10 < bounds.maxx + 10 := by linarith
  exact h.rightwards rotated (bounds.minx - 10, y) (bounds.maxx + 10, y) rfl hline

theorem AlongLine.clip_goesLeft (h : AlongLine geometry) (hbounds : bounds.minx ≤ bounds.maxx) :
    GoesLeft (sweepClip geometry rotated bounds false y).coords := by
  have hline : bounds.minx - 10 < bounds.maxx + 10 := by linarith
  exact h.leftwards rotated (bounds.maxx + 10, y) (bounds.minx - 10, y) rfl hline

theorem LeftToRight.clip_goesRight (h : LeftToRight geometry) (hbounds : bounds.minx ≤ bounds.maxx)
    (leftToRight : Bool) : GoesRight (sweepClip geometry rotated bounds leftToRight y).coords := by
  have hline : bounds.minx - 10 < bounds.maxx + 10 := by linarith
  cases leftToRight with
  | true => exact h.rightwards rotated (bounds.minx - 10, y) (bounds.maxx + 10, y) rfl hline.ne
  | false => exact h.rightwards rotated (bounds.maxx + 10, y) (bounds.minx - 10, y) rfl hline.ne'

/-- To the left, along the line, goes what is not in several pieces. -/
theorem AlongLine.goesLeft_iff (h : AlongLine geometry) (hbounds : bounds.minx ≤ bounds.maxx) :
    GoesLeft (sweepCoords geometry rotated bounds false y) ↔
      ¬ (sweepClip geometry rotated bounds false y).IsMulti := by
  have hleft : GoesLeft (sweepClip geometry rotated bounds false y).coords :=
    h.clip_goesLeft hbounds
  by_cases hsingle : (sweepClip geometry rotated bounds false y).IsSingle
  · rw [sweepCoords_right_single hsingle]
    refine iff_of_true hleft fun hmulti => ?_
    cases hclip : sweepClip geometry rotated bounds false y with
    | lineString coords => rwa [hclip] at hmulti
    | _ =>
      rw [hclip] at hsingle
      exact hsingle
  · rw [sweepCoords_right_multi hsingle, goesLeft_reverse]
    by_cases hmulti : (sweepClip geometry rotated bounds false y).IsMulti
    · -- turned around, the pieces go to the right
      have hlong := h.toClipsLines.long_sweep hbounds (.inr hmulti)
      exact iff_of_false (fun hright => not_goesLeft hright hlong hleft) (not_not.mpr hmulti)
    · refine iff_of_true ?_ hmulti
      rw [Clipped.coords_eq_nil hsingle hmulti]
      exact .nil

theorem LeftToRight.goesLeft_iff (h : LeftToRight geometry) (hbounds : bounds.minx ≤ bounds.maxx) :
    GoesLeft (sweepCoords geometry rotated bounds false y) ↔
      ¬ (sweepClip geometry rotated bounds false y).IsSingle := by
  have hright : GoesRight (sweepClip geometry rotated bounds false y).coords :=
    h.clip_goesRight hbounds false
  by_cases hsingle : (sweepClip geometry rotated bounds false y).IsSingle
  · rw [sweepCoords_right_single hsingle]
    have hlong := h.toClipsLines.long_sweep hbounds (.inl hsingle)
    exact iff_of_false (not_goesLeft hright hlong) (not_not.mpr hsingle)
  · rw [sweepCoords_right_multi hsingle, goesLeft_reverse]
    exact iff_of_true hright hsingle

end Sweep

section Fill

variable [Field K] [LinearOrder K] [IsStrictOrderedRing K] [FloorRing K] (geometry : Geometry K)
  (mowable : geometry.Shape) (swath : Swath K) (angleDeg : K)

/-- What the fill has of one sweep, in the frame in which the sweeps run from side to side. -/
def sweepOf (number : ℕ) (y : K) : List (K × K) :=
  let rotated := rotatedPolygon geometry mowable angleDeg
  sweepCoords geometry rotated (geometry.bounds rotated) (number % 2 = 0) y

/-- The cut line of one sweep. -/
def clipOf (number : ℕ) (y : K) : Clipped K :=
  let rotated := rotatedPolygon geometry mowable angleDeg
  sweepClip geometry rotated (geometry.bounds rotated) (number % 2 = 0) y

/-- The sweeps with even numbers go to the right and those with odd numbers to the left. -/
structure Serpentine : Prop where
  even : ∀ number y, (drawnLines geometry mowable swath angleDeg)[number]? = some y →
    number % 2 = 0 → GoesRight (sweepOf geometry mowable angleDeg number y)
  odd : ∀ number y, (drawnLines geometry mowable swath angleDeg)[number]? = some y →
    number % 2 = 1 → GoesLeft (sweepOf geometry mowable angleDeg number y)

variable {geometry mowable swath angleDeg}

omit [LinearOrder K] [IsStrictOrderedRing K] [FloorRing K] in
theorem sweeps_eq_flatten {rotated : geometry.Shape} {bounds : Bounds K} (leftToRight : Bool)
    (lines : List K) : sweeps geometry rotated bounds leftToRight lines =
      (lines.mapIdx fun number y =>
        sweepCoords geometry rotated bounds (leftToRight ^^ (number % 2 = 1)) y).flatten := by
  induction lines generalizing leftToRight with
  | nil => rfl
  | cons y lines ih =>
    rw [sweeps, ih, List.mapIdx_cons, List.flatten_cons]
    have hfirst : (leftToRight ^^ decide (0 % 2 = 1)) = leftToRight := by simp
    have hnext : ∀ number : ℕ, (!leftToRight ^^ decide (number % 2 = 1)) =
        (leftToRight ^^ decide ((number + 1) % 2 = 1)) := by
      intro number
      rcases Nat.mod_two_eq_zero_or_one number with h | h <;>
        cases leftToRight <;> simp [h, Nat.add_mod]
    simp only [hfirst, hnext]

theorem generateBoustrophedonFill_eq_sweeps (geometry : Geometry K) (mowable : geometry.Shape)
    (swath : Swath K) (angleDeg : K) : generateBoustrophedonFill geometry mowable swath angleDeg =
      let origin := ((geometry.bounds mowable).minx, (geometry.bounds mowable).miny)
      let waypoints := ((drawnLines geometry mowable swath angleDeg).mapIdx
        (sweepOf geometry mowable angleDeg)).flatten
      if angleDeg = 0 then waypoints else waypoints.map (rotateBack geometry origin angleDeg) := by
  have hdirection : ∀ number : ℕ, (true ^^ decide (number % 2 = 1)) = decide (number % 2 = 0) := by
    intro number
    rcases Nat.mod_two_eq_zero_or_one number with h | h <;> simp [h]
  rw [generateBoustrophedonFill_eq]
  simp only [sweeps_eq_flatten, hdirection]
  rfl

theorem ClipsLines.bounds_le_of_drawn (h : ClipsLines geometry) {number : ℕ} {y : K}
    (hdrawn : (drawnLines geometry mowable swath angleDeg)[number]? = some y) :
    (geometry.bounds (rotatedPolygon geometry mowable angleDeg)).minx ≤
      (geometry.bounds (rotatedPolygon geometry mowable angleDeg)).maxx := by
  apply h.bounds_le
  by_contra hempty
  have hnone : drawnLines geometry mowable swath angleDeg = [] := if_pos (by simp [hempty])
  rw [hnone] at hdrawn
  cases hdrawn

/-- Sweeps to the right are right under both conventions; so are those to the left that meet a
condition exactly when the fill is serpentine. -/
theorem serpentine_iff_of {odd : ℕ → K → Prop}
    (heven : ∀ number y, (drawnLines geometry mowable swath angleDeg)[number]? = some y →
      number % 2 = 0 → GoesRight (sweepOf geometry mowable angleDeg number y))
    (hodd : ∀ number y, (drawnLines geometry mowable swath angleDeg)[number]? = some y →
      number % 2 = 1 → (GoesLeft (sweepOf geometry mowable angleDeg number y) ↔ odd number y)) :
    Serpentine geometry mowable swath angleDeg ↔
      ∀ number y, (drawnLines geometry mowable swath angleDeg)[number]? = some y →
        number % 2 = 1 → odd number y := by
  constructor
  · intro h number y hdrawn hnumber
    exact (hodd number y hdrawn hnumber).mp (h.odd number y hdrawn hnumber)
  · intro h
    refine ⟨heven, fun number y hdrawn hnumber => ?_⟩
    exact (hodd number y hdrawn hnumber).mpr (h number y hdrawn hnumber)

/-- With pieces along the line, what goes wrong are the lines to the left that are cut into several
pieces. -/
theorem AlongLine.serpentine (h : AlongLine geometry) :
    Serpentine geometry mowable swath angleDeg ↔
      ∀ number y, (drawnLines geometry mowable swath angleDeg)[number]? = some y →
        number % 2 = 1 → ¬ (clipOf geometry mowable angleDeg number y).IsMulti := by
  apply serpentine_iff_of
  · intro number y hdrawn hnumber
    simp only [sweepOf, hnumber, decide_true]
    rw [sweepCoords_left]
    exact h.clip_goesRight (h.toClipsLines.bounds_le_of_drawn hdrawn)
  · intro number y hdrawn hnumber
    simp only [sweepOf, clipOf, hnumber, one_ne_zero, decide_false]
    exact h.goesLeft_iff (h.toClipsLines.bounds_le_of_drawn hdrawn)

theorem LeftToRight.serpentine (h : LeftToRight geometry) :
    Serpentine geometry mowable swath angleDeg ↔
      ∀ number y, (drawnLines geometry mowable swath angleDeg)[number]? = some y →
        number % 2 = 1 → ¬ (clipOf geometry mowable angleDeg number y).IsSingle := by
  apply serpentine_iff_of
  · intro number y hdrawn hnumber
    simp only [sweepOf, hnumber, decide_true]
    rw [sweepCoords_left]
    exact h.clip_goesRight (h.toClipsLines.bounds_le_of_drawn hdrawn) true
  · intro number y hdrawn hnumber
    simp only [sweepOf, clipOf, hnumber, one_ne_zero, decide_false]
    exact h.goesLeft_iff (h.toClipsLines.bounds_le_of_drawn hdrawn)

/-- The fill is made of the sweeps, each turned back. With pieces along the line, they alternate
exactly when no sweep to the left is cut into several pieces; with pieces from the left, exactly
when none is left in one piece. -/
theorem serpentine_iff (geometry : Geometry K) (mowable : geometry.Shape) (swath : Swath K)
    (angleDeg : K) :
    (generateBoustrophedonFill geometry mowable swath angleDeg =
      let origin := ((geometry.bounds mowable).minx, (geometry.bounds mowable).miny)
      let waypoints := ((drawnLines geometry mowable swath angleDeg).mapIdx
        (sweepOf geometry mowable angleDeg)).flatten
      if angleDeg = 0 then waypoints else waypoints.map (rotateBack geometry origin angleDeg)) ∧
    (AlongLine geometry → (Serpentine geometry mowable swath angleDeg ↔
      ∀ number y, (drawnLines geometry mowable swath angleDeg)[number]? = some y →
        number % 2 = 1 → ¬ (clipOf geometry mowable angleDeg number y).IsMulti)) ∧
    (LeftToRight geometry → (Serpentine geometry mowable swath angleDeg ↔
      ∀ number y, (drawnLines geometry mowable swath angleDeg)[number]? = some y →
        number % 2 = 1 → ¬ (clipOf geometry mowable angleDeg number y).IsSingle)) :=
  ⟨generateBoustrophedonFill_eq_sweeps geometry mowable swath angleDeg,
    fun h => h.serpentine, fun h => h.serpentine⟩

end Fill

end Order

/-- Where a line at a height is over the lawn: below, from side to side, and above, over two prongs.
-/
def prongs (y : ℚ) : List (ℚ × ℚ) :=
  if 0 ≤ y ∧ y ≤ 2 then [(0, 10)] else if 2 < y ∧ y ≤ 4 then [(0, 4), (6, 10)] else []

/-- A piece from its left end to its right one. -/
def pieceAt (y : ℚ) (ends : ℚ × ℚ) : List (ℚ × ℚ) := [(ends.1, y), (ends.2, y)]

def clippedOf : List (List (ℚ × ℚ)) → Clipped ℚ
  | [] => .empty
  | [piece] => .lineString piece
  | pieces => .multiLineString pieces

/-- The geometry of this lawn, as long as it is not turned, with pieces along the line or with
pieces from the left. -/
def uLawn (along : Bool) : Geometry ℚ where
  Shape := Unit
  polygon _ := ()
  isValid _ := true
  isEmpty _ := false
  area _ := 36
  buffer _ _ := ()
  difference _ _ := ()
  parts _ := .polygon
    ⟨[(0, 0), (10, 0), (10, 4), (6, 4), (6, 2), (4, 2), (4, 4), (0, 4)], [], 36⟩
  bounds _ := ⟨0, 0, 10, 4⟩
  rotate _ _ _ := ()
  intersection _ start stop :=
    let pieces := (prongs start.2).map (pieceAt start.2)
    clippedOf (if along && stop.1 < start.1 then pieces.reverse.map List.reverse else pieces)
  cosDegrees _ := 1
  sinDegrees _ := 0

theorem clippedOf_pieces (pieces : List (List (ℚ × ℚ))) : (clippedOf pieces).pieces = pieces := by
  match pieces with
  | [] | [_] | _ :: _ :: _ => rfl

theorem clippedOf_coords (pieces : List (List (ℚ × ℚ))) :
    (clippedOf pieces).coords = pieces.flatten := by
  match pieces with
  | [] | _ :: _ :: _ => rfl
  | [piece] => exact (List.flatten_singleton).symm

theorem prongs_ne {y : ℚ} : ∀ ends ∈ prongs y, ends.1 ≠ ends.2 := by
  unfold prongs
  split_ifs <;> norm_num

theorem prongs_goesRight (y : ℚ) : GoesRight ((prongs y).map (pieceAt y)).flatten := by
  unfold prongs GoesRight
  split_ifs <;> norm_num [pieceAt]

theorem uLawn_clipsLines (along : Bool) : ClipsLines (uLawn along) where
  bounds_le _ _ _ _ := by
    show (0 : ℚ) ≤ 10
    norm_num
  long s start stop _ _ piece hpiece := by
    have hmem : ∃ ends ∈ prongs start.2, piece = pieceAt start.2 ends ∨
        piece = (pieceAt start.2 ends).reverse := by
      dsimp only [uLawn] at hpiece
      rw [clippedOf_pieces] at hpiece
      split_ifs at hpiece
      · simp only [List.mem_map, List.mem_reverse] at hpiece
        obtain ⟨_, ⟨ends, hends, rfl⟩, rfl⟩ := hpiece
        exact ⟨ends, hends, .inr rfl⟩
      · obtain ⟨ends, hends, rfl⟩ := List.mem_map.mp hpiece
        exact ⟨ends, hends, .inl rfl⟩
    obtain ⟨ends, hends, hpiece⟩ := hmem
    refine ⟨(ends.1, start.2), ?_, (ends.2, start.2), ?_, prongs_ne ends hends⟩ <;>
      rcases hpiece with rfl | rfl <;> simp [pieceAt]

theorem uLawn_alongLine : AlongLine (uLawn true) where
  toClipsLines := uLawn_clipsLines true
  rightwards s start stop _ hright := by
    dsimp only [uLawn]
    rw [clippedOf_coords, if_neg (by simpa using hright.le)]
    exact prongs_goesRight start.2
  leftwards s start stop _ hleft := by
    dsimp only [uLawn]
    rw [clippedOf_coords, if_pos (by simpa using hleft), List.map_reverse, ← List.reverse_flatten,
      goesLeft_reverse]
    exact prongs_goesRight start.2

theorem uLawn_leftToRight : LeftToRight (uLawn false) where
  toClipsLines := uLawn_clipsLines false
  rightwards s start stop _ _ := by
    dsimp only [uLawn]
    rw [clippedOf_coords, if_neg (by simp)]
    exact prongs_goesRight start.2

theorem uLawn_lines (along : Bool) {swath : Swath ℚ} {lines : List ℚ}
    (hloop : stepsWithin swath.spacing (4 - swath.spacing / (2 : ℕ)) 4
      (0 + swath.spacing / (2 : ℕ)) = some lines) :
    drawnLines (uLawn along) () swath 0 = lines := by
  have hlarge : ¬ (false || decide ((36 : ℚ) < 1)) = true := by norm_num
  have hdrawn : drawnLines (uLawn along) () swath 0 = sweepLines swath ⟨0, 0, 10, 4⟩ :=
    if_neg hlarge
  rw [hdrawn]
  exact ((stepsWithin_eq_some_iff swath.spacing_pos).mp hloop).1.symm

theorem uLawn_metreLines (along : Bool) :
    drawnLines (uLawn along) () metreSwath 0 = [1 / 2, 3 / 2, 5 / 2, 7 / 2] :=
  uLawn_lines along (by decide +kernel)

/-- A cutting width without an overlap. -/
def wideSwath (width : ℚ) (h : 0 < width) : Swath ℚ where
  width := width
  overlap := 0
  width_pos := h
  overlap_nonneg := le_rfl
  overlap_le := noOverlap_le

theorem uLawn_wideLines : drawnLines (uLawn true) () (wideSwath (5 / 4) (by norm_num)) 0 =
      [5 / 8, 15 / 8, 25 / 8] ∧
    drawnLines (uLawn false) () (wideSwath (3 / 2) (by norm_num)) 0 = [3 / 4, 9 / 4] :=
  ⟨uLawn_lines true (by decide +kernel), uLawn_lines false (by decide +kernel)⟩

/-- Widths at which the second line is the only one to the left, in one piece or in two. -/
theorem serpentine_uLawn :
    Serpentine (uLawn true) () (wideSwath (5 / 4) (by norm_num)) 0 ∧
      Serpentine (uLawn false) () (wideSwath (3 / 2) (by norm_num)) 0 := by
  obtain ⟨-, halong, -⟩ := serpentine_iff (uLawn true) () (wideSwath (5 / 4) (by norm_num)) 0
  obtain ⟨-, -, hleft⟩ := serpentine_iff (uLawn false) () (wideSwath (3 / 2) (by norm_num)) 0
  refine ⟨(halong uLawn_alongLine).mpr fun number y hdrawn hodd => ?_,
    (hleft uLawn_leftToRight).mpr fun number y hdrawn hodd => ?_⟩
  · rw [uLawn_wideLines.1] at hdrawn
    obtain ⟨rfl, rfl⟩ : number = 1 ∧ y = 15 / 8 := by
      rcases number with _ | _ | _ | number <;> simp_all
    decide +kernel
  · rw [uLawn_wideLines.2] at hdrawn
    obtain ⟨rfl, rfl⟩ : number = 1 ∧ y = 9 / 4 := by
      rcases number with _ | _ | number <;> simp_all
    decide +kernel

/-- The second line is in one piece and the fourth in two, so that one of them goes the wrong way
under either convention. -/
theorem serpentine_neither :
    AlongLine (uLawn true) ∧ ¬ Serpentine (uLawn true) () metreSwath 0 ∧
      LeftToRight (uLawn false) ∧ ¬ Serpentine (uLawn false) () metreSwath 0 := by
  refine ⟨uLawn_alongLine, fun h => ?_, uLawn_leftToRight, fun h => ?_⟩
  · have hfourth := uLawn_alongLine.serpentine.mp h 3 (7 / 2) (by rw [uLawn_metreLines]; rfl) rfl
    exact hfourth (by decide +kernel)
  · have hsecond := uLawn_leftToRight.serpentine.mp h 1 (3 / 2) (by rw [uLawn_metreLines]; rfl) rfl
    exact hsecond (by decide +kernel)

end MowerRover.Zone
