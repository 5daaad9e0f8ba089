import MowerRover.Zone.Planner

/-!
# Rectangular lawns

What Shapely makes of a rectangle that is inset, as far as the planner asks:
another rectangle, for as long as there is room for one.
-/

namespace MowerRover.Zone

structure Rect (K : Type) [LinearOrder K] where
  left : K
  bottom : K
  right : K
  top : K
  width_pos : left < right
  height_pos : bottom < top

section Rect

variable {K : Type} [Field K] [LinearOrder K]

namespace Rect

def corners (r : Rect K) : List (K × K) :=
  [(r.left, r.bottom), (r.right, r.bottom), (r.right, r.top), (r.left, r.top)]

def bounds (r : Rect K) : Bounds K := ⟨r.left, r.bottom, r.right, r.top⟩

def width (r : Rect K) : K := r.right - r.left

def height (r : Rect K) : K := r.top - r.bottom

/-- There is something left of the rectangle when it is inset. -/
structure HasRoom (r : Rect K) (d : K) : Prop where
  across : 2 * d < r.width
  along : 2 * d < r.height

variable [IsStrictOrderedRing K]

def inset (r : Rect K) (d : K) (h : r.HasRoom d) : Rect K where
  left := r.left + d
  bottom := r.bottom + d
  right := r.right - d
  top := r.top - d
  width_pos := by
    have := h.across
    unfold width at this
    linarith
  height_pos := by
    have := h.along
    unfold height at this
    linarith

@[simp] theorem inset_bottom (r : Rect K) (d : K) (h : r.HasRoom d) :
    (r.inset d h).bottom = r.bottom + d := rfl

@[simp] theorem inset_top (r : Rect K) (d : K) (h : r.HasRoom d) :
    (r.inset d h).top = r.top - d := rfl

@[simp] theorem inset_width (r : Rect K) (d : K) (h : r.HasRoom d) :
    (r.inset d h).width = r.width - 2 * d := by
  simp only [width, inset]
  ring

@[simp] theorem inset_height (r : Rect K) (d : K) (h : r.HasRoom d) :
    (r.inset d h).height = r.height - 2 * d := by
  simp only [height, inset]
  ring

theorem HasRoom.mono {r : Rect K} {d e : K} (h : r.HasRoom d) (he : e ≤ d) : r.HasRoom e := by
  constructor <;> linarith [h.across, h.along]

end Rect

/-- The heights of the edges of a closed ring that run along the first axis. -/
def horizontals (ring : List (K × K)) : List K :=
  ((ring.zip (ring.rotate 1)).filter fun edge => edge.1.2 = edge.2.2 ∧ edge.1.1 ≠ edge.2.1).map
    fun edge => edge.1.2

variable [IsStrictOrderedRing K]

/-- Rectangles, as Shapely treats them where they are inset and not turned. -/
structure InsetsRectangles (geometry : Geometry K) (shape : Rect K → geometry.Shape) : Prop where
  polygon : ∀ r, geometry.polygon r.corners = shape r
  isValid : ∀ r, geometry.isValid (shape r) = true
  isEmpty : ∀ r, geometry.isEmpty (shape r) = false
  area : ∀ r, geometry.area (shape r) = r.width * r.height
  buffer : ∀ r d (h : r.HasRoom d), 0 < d → geometry.buffer (shape r) (-d) = shape (r.inset d h)
  bounds : ∀ r, geometry.bounds (shape r) = r.bounds
  rotate : ∀ r origin, geometry.rotate (shape r) 0 origin = shape r
  /-- one ring, with an edge at the bottom and one at the top -/
  parts : ∀ r, ∃ exterior area, geometry.parts (shape r) = .polygon ⟨exterior, [], area⟩ ∧
    exterior ≠ [] ∧ ∀ y, y ∈ horizontals exterior ↔ y = r.bottom ∨ y = r.top

end Rect

/-- The geometry of rectangles that nothing is cut out of and that are not turned. -/
def boxes : Geometry ℚ where
  Shape := Option (Rect ℚ)
  polygon
    | [p, q, r, s] =>
      if h : (p.2 = q.2 ∧ q.1 = r.1 ∧ r.2 = s.2 ∧ s.1 = p.1) ∧ p.1 < q.1 ∧ p.2 < s.2 then
        some ⟨p.1, p.2, q.1, s.2, h.2.1, h.2.2⟩
      else none
    | _ => none
  isValid _ := true
  isEmpty := Option.isNone
  area
    | some r => r.width * r.height
    | none => 0
  buffer shape d :=
    shape.bind fun r =>
      if h : 2 * -d < r.width ∧ 2 * -d < r.height then some (r.inset (-d) ⟨h.1, h.2⟩) else none
  difference shape _ := shape
  parts
    | some r => .polygon ⟨r.corners, [], r.width * r.height⟩
    | none => .geoms []
  bounds
    | some r => r.bounds
    | none => ⟨0, 0, 0, 0⟩
  rotate shape _ _ := shape
  intersection shape p q :=
    match shape with
    | some r =>
      if r.bottom ≤ p.2 ∧ p.2 ≤ r.top then
        .lineString (if p.1 ≤ q.1 then [(r.left, p.2), (r.right, p.2)]
          else [(r.right, p.2), (r.left, p.2)])
      else .empty
    | none => .empty
  cosDegrees _ := 1
  sinDegrees _ := 0

theorem boxes_insetsRectangles : InsetsRectangles boxes some where
  polygon r := dif_pos ⟨⟨rfl, rfl, rfl, rfl⟩, r.width_pos, r.height_pos⟩
  isValid _ := rfl
  isEmpty _ := rfl
  area _ := rfl
  buffer r d h _ := by
    show (if h : 2 * - -d < r.width ∧ 2 * - -d < r.height then some (r.inset (- -d) ⟨h.1, h.2⟩)
      else none) = _
    simp only [neg_neg]
    exact dif_pos ⟨h.across, h.along⟩
  bounds _ := rfl
  rotate _ _ := rfl
  parts r := by
    refine ⟨_, _, rfl, List.cons_ne_nil _ _, fun y => ?_⟩
    have hwidth := r.width_pos.ne
    have hheight := r.height_pos.ne
    simp [horizontals, Rect.corners, hwidth, hwidth.symm, hheight, hheight.symm]

end MowerRover.Zone
