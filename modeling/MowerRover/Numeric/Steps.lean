import Mathlib.Tactic
import Mathlib.Algebra.Order.Floor.Ring

/-!
# Equal steps up to a limit

The numbers that a loop goes through when it starts somewhere and adds the same
positive step for as long as it has not passed a limit.
-/

namespace MowerRover.Numeric

def stepsTo {K : Type} [Field K] [LinearOrder K] [IsStrictOrderedRing K] [FloorRing K]
    (step limit : K) (hstep : 0 < step) (y : K) : List K :=
  if y ≤ limit then y :: stepsTo step limit hstep (y + step) else []
termination_by (⌊(limit - y) / step⌋ + 1).toNat
decreasing_by
  rename_i hle
  have hshift : (limit - (y + step)) / step = (limit - y) / step - 1 := by
    rw [← sub_sub, sub_div, div_self hstep.ne']
  have hnonneg : 0 ≤ ⌊(limit - y) / step⌋ :=
    Int.floor_nonneg.mpr (div_nonneg (sub_nonneg.mpr hle) hstep.le)
  rw [hshift, Int.floor_sub_one]
  omega

variable {K : Type} [Field K] [LinearOrder K] [IsStrictOrderedRing K] [FloorRing K]

theorem mem_stepsTo {step limit y l : K} (hstep : 0 < step) :
    l ∈ stepsTo step limit hstep y ↔ ∃ k : ℕ, l = y + k * step ∧ l ≤ limit := by
  induction y using stepsTo.induct step limit hstep with
  | case1 y hle ih =>
    rw [stepsTo, if_pos hle, List.mem_cons, ih]
    constructor
    · rintro (rfl | ⟨k, rfl, hk⟩)
      · exact ⟨0, by simp, hle⟩
      · refine ⟨k + 1, ?_, hk⟩
        push_cast
        ring
    · rintro ⟨k, rfl, hk⟩
      cases k with
      | zero => simp
      | succ k =>
        refine .inr ⟨k, ?_, hk⟩
        push_cast
        ring
  | case2 y hgt =>
    rw [stepsTo, if_neg hgt]
    constructor
    · intro h
      cases h
    · rintro ⟨k, rfl, hk⟩
      have : 0 ≤ (k : K) * step := by positivity
      exact absurd (by linarith) hgt

/-- The loop for so many rounds; nothing when they do not take it past the limit. -/
def stepsWithin (step limit : K) : ℕ → K → Option (List K)
  | 0, y => if y ≤ limit then none else some []
  | rounds + 1, y =>
    if y ≤ limit then (stepsWithin step limit rounds (y + step)).map (y :: ·) else some []

/-- The loop ends, after as many rounds as it goes through numbers. -/
theorem stepsWithin_eq_some_iff {step limit y : K} (hstep : 0 < step) {rounds : ℕ} {l : List K} :
    stepsWithin step limit rounds y = some l ↔
      l = stepsTo step limit hstep y ∧ (stepsTo step limit hstep y).length ≤ rounds := by
  induction rounds generalizing y l with
  | zero =>
    by_cases hle : y ≤ limit
    · rw [stepsWithin, stepsTo, if_pos hle, if_pos hle]
      simp
    · rw [stepsWithin, stepsTo, if_neg hle, if_neg hle]
      simp [eq_comm]
  | succ rounds ih =>
    by_cases hle : y ≤ limit
    · rw [stepsWithin, stepsTo, if_pos hle, if_pos hle, Option.map_eq_some_iff]
      simp only [ih, List.length_cons, Nat.add_le_add_iff_right]
      constructor
      · rintro ⟨_, ⟨rfl, hlen⟩, rfl⟩
        exact ⟨rfl, hlen⟩
      · rintro ⟨rfl, hlen⟩
        exact ⟨_, ⟨rfl, hlen⟩, rfl⟩
    · rw [stepsWithin, stepsTo, if_neg hle, if_neg hle]
      simp [eq_comm]

theorem length_stepsTo {step limit y : K} (hstep : 0 < step) :
    (stepsTo step limit hstep y).length = (⌊(limit - y) / step⌋ + 1).toNat := by
  induction y using stepsTo.induct step limit hstep with
  | case1 y hle ih =>
    have hshift : (limit - (y + step)) / step = (limit - y) / step - 1 := by
      rw [← sub_sub, sub_div, div_self hstep.ne']
    have hnonneg : 0 ≤ ⌊(limit - y) / step⌋ :=
      Int.floor_nonneg.mpr (div_nonneg (sub_nonneg.mpr hle) hstep.le)
    rw [stepsTo, if_pos hle, List.length_cons, ih, hshift, Int.floor_sub_one]
    omega
  | case2 y hgt =>
    have hneg : ⌊(limit - y) / step⌋ < 0 := by
      rw [Int.floor_lt, Int.cast_zero]
      exact div_neg_of_neg_of_pos (sub_neg.mpr (not_le.mp hgt)) hstep
    rw [stepsTo, if_neg hgt, List.length_nil]
    omega

theorem step_le_iff {step height : K} (hstep : 0 < step) (k : ℕ) :
    ((k : K) + 1) * step ≤ height ↔ (k : ℤ) + 1 ≤ ⌊height / step⌋ := by
  rw [Int.le_floor, le_div_iff₀ hstep]
  push_cast
  rfl

/-- What is left of a distance after as many whole steps as fit. -/
def remainder (height step : K) : K := height - ⌊height / step⌋ * step

theorem remainder_nonneg {height step : K} (hstep : 0 < step) : 0 ≤ remainder height step := by
  have := mul_le_mul_of_nonneg_right (Int.floor_le (height / step)) hstep.le
  rw [div_mul_cancel₀ _ hstep.ne'] at this
  exact sub_nonneg.mpr this

/-- The last whole step, when there is one. -/
theorem exists_last_step {height step : K} (hstep : 0 < step) (h : step ≤ height) :
    ∃ k : ℕ, ((k : K) + 1) * step = height - remainder height step := by
  have hone : 1 ≤ ⌊height / step⌋ := by
    rw [Int.le_floor, Int.cast_one, le_div_iff₀ hstep, one_mul]
    exact h
  obtain ⟨k, hk⟩ := Int.eq_ofNat_of_zero_le (sub_nonneg.mpr hone)
  refine ⟨k, ?_⟩
  have hcast : ((k : K) + 1) = (⌊height / step⌋ : K) := by
    rw [← Int.cast_natCast, ← hk]
    push_cast
    ring
  rw [hcast, remainder]
  ring

theorem remainder_eq {height step : K} (hstep : 0 < step) {k : ℕ}
    (h : ((k : K) + 1) * step ≤ height)
    (hnext : ¬ ((k + 1 : ℕ) + 1 : K) * step ≤ height) :
    remainder height step = height - (k + 1) * step := by
  have hle := (step_le_iff hstep k).mp h
  have hlt := mt (step_le_iff hstep (k + 1)).mpr hnext
  have hfloor : ⌊height / step⌋ = (k : ℤ) + 1 := by
    push_cast at hlt
    omega
  rw [remainder, hfloor]
  push_cast
  rfl

theorem step_le_sub_remainder {height step : K} (hstep : 0 < step) {k : ℕ}
    (h : ((k : K) + 1) * step ≤ height) : ((k : K) + 1) * step ≤
      height - remainder height step := by
  have hfloor := (step_le_iff hstep k).mp h
  have hcast : (k : K) + 1 ≤ ⌊height / step⌋ := by exact_mod_cast hfloor
  have := mul_le_mul_of_nonneg_right hcast hstep.le
  unfold remainder
  linarith

end MowerRover.Numeric
