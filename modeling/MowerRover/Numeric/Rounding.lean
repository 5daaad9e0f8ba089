import Mathlib.Tactic
import Mathlib.Data.Int.Log

/-!
# Rounding rationals to a binary precision

Rounding to the nearest multiple of a grid, ties to even, and rounding to a
number of significant bits, where the grid follows the magnitude. With `p`
bits the relative error is at most `2 ^ (-p)`.
-/

namespace MowerRover.Numeric

def roundHalfEven (x : ℚ) : ℤ :=
  if x - ⌊x⌋ < 1 / 2 then ⌊x⌋
  else if 1 / 2 < x - ⌊x⌋ then ⌊x⌋ + 1
  else if ⌊x⌋ % 2 = 0 then ⌊x⌋ else ⌊x⌋ + 1

theorem roundHalfEven_error (x : ℚ) : |(roundHalfEven x : ℚ) - x| ≤ 1 / 2 := by
  have hlo := Int.floor_le x
  have hhi := Int.lt_floor_add_one x
  rw [abs_le]
  unfold roundHalfEven
  split_ifs <;> push_cast <;> constructor <;> linarith

@[simp] theorem roundHalfEven_intCast (n : ℤ) : roundHalfEven n = n := by
  simp [roundHalfEven]

theorem roundHalfEven_mono {x y : ℚ} (h : x ≤ y) : roundHalfEven x ≤ roundHalfEven y := by
  by_contra hlt
  have hgap : (roundHalfEven y : ℚ) + 1 ≤ roundHalfEven x := by exact_mod_cast not_le.mp hlt
  have hx := abs_le.mp (roundHalfEven_error x)
  have hy := abs_le.mp (roundHalfEven_error y)
  -- both are half a unit off, towards each other, so they are the same number
  obtain rfl : x = y := by linarith [hx.2, hy.1]
  exact hlt le_rfl

theorem roundHalfEven_neg (x : ℚ) : roundHalfEven (-x) = -roundHalfEven x := by
  by_cases hx : (⌊x⌋ : ℚ) = x
  · rw [← hx, ← Int.cast_neg, roundHalfEven_intCast, roundHalfEven_intCast]
  · have hfloor : ⌊-x⌋ = -⌊x⌋ - 1 := by
      rw [Int.floor_eq_iff]
      have hlo := lt_of_le_of_ne (Int.floor_le x) hx
      have hhi := Int.lt_floor_add_one x
      push_cast
      constructor <;> linarith
    unfold roundHalfEven
    rw [hfloor]
    push_cast
    split_ifs <;> first | omega | (exfalso; linarith)

/-- An even number is reached from half a unit below on. -/
theorem le_roundHalfEven_iff {n : ℤ} (hn : Even n) (x : ℚ) :
    n ≤ roundHalfEven x ↔ n - 1 / 2 ≤ x := by
  constructor
  · intro h
    have hx := abs_le.mp (roundHalfEven_error x)
    have hcast : (n : ℚ) ≤ roundHalfEven x := by exact_mod_cast h
    linarith [hx.2]
  · intro h
    by_cases hnx : (n : ℚ) ≤ x
    · simpa using roundHalfEven_mono hnx
    · have hfloor : ⌊x⌋ = n - 1 := by
        rw [Int.floor_eq_iff]
        push_cast
        constructor <;> linarith
      obtain ⟨k, rfl⟩ := hn
      unfold roundHalfEven
      rw [hfloor]
      push_cast at h ⊢
      split_ifs <;> first | omega | (exfalso; linarith)

/-- The multiple of `unit` nearest to `q`. -/
def roundAt (unit q : ℚ) : ℚ := roundHalfEven (q / unit) * unit

theorem roundAt_error {unit : ℚ} (hu : 0 < unit) (q : ℚ) : |roundAt unit q - q| ≤ unit / 2 := by
  have hq : roundAt unit q - q = (roundHalfEven (q / unit) - q / unit) * unit := by
    unfold roundAt
    field_simp
  rw [hq, abs_mul, abs_of_pos hu]
  have := mul_le_mul_of_nonneg_right (roundHalfEven_error (q / unit)) hu.le
  linarith

theorem roundAt_mul {unit : ℚ} (hu : unit ≠ 0) (n : ℤ) : roundAt unit (n * unit) = n * unit := by
  simp [roundAt, hu]

theorem roundAt_neg (unit q : ℚ) : roundAt unit (-q) = -roundAt unit q := by
  rw [roundAt, roundAt, neg_div, roundHalfEven_neg]
  push_cast
  ring

theorem roundAt_mono {unit x y : ℚ} (hu : 0 < unit) (h : x ≤ y) :
    roundAt unit x ≤ roundAt unit y := by
  have hround : (roundHalfEven (x / unit) : ℚ) ≤ roundHalfEven (y / unit) := by
    exact_mod_cast roundHalfEven_mono (div_le_div_of_nonneg_right h hu.le)
  exact mul_le_mul_of_nonneg_right hround hu.le

/-- The weight of the last of `p` significant bits of `q`. -/
def lastPlace (p : ℕ) (q : ℚ) : ℚ := 2 ^ (Int.log 2 |q| + 1 - p)

theorem lastPlace_pos (p : ℕ) (q : ℚ) : 0 < lastPlace p q := by unfold lastPlace; positivity

theorem log_lt_of_lt {q : ℚ} {e : ℤ} (hq : 0 < q) (h : q < 2 ^ e) : Int.log 2 q < e :=
  (Int.lt_zpow_iff_log_lt (by norm_num) hq).mp (by simpa using h)

theorem le_log_of_le {q : ℚ} {e : ℤ} (h : 2 ^ e ≤ q) : e ≤ Int.log 2 q :=
  (Int.zpow_le_iff_le_log (by norm_num) (lt_of_lt_of_le (by positivity) h)).mp (by simpa using h)

theorem lastPlace_eq {q : ℚ} {e : ℤ} (p : ℕ) (hlo : 2 ^ e ≤ |q|) (hhi : |q| < 2 ^ (e + 1)) :
    lastPlace p q = 2 ^ (e + 1 - p) := by
  have h1 := le_log_of_le hlo
  have h2 := log_lt_of_lt (lt_of_lt_of_le (by positivity) hlo) hhi
  rw [lastPlace, show Int.log 2 |q| = e by omega]

/-- `q` with `p` significant bits. -/
def roundTo (p : ℕ) (q : ℚ) : ℚ := roundAt (lastPlace p q) q

theorem roundTo_relativeError (p : ℕ) (q : ℚ) : |roundTo p q - q| ≤ 2 ^ (-p : ℤ) * |q| := by
  by_cases hq : q = 0
  · subst hq
    simp [roundTo, roundAt, roundHalfEven]
  have hpos : 0 < |q| := abs_pos.mpr hq
  have hlog : (2 : ℚ) ^ Int.log 2 |q| ≤ |q| := by
    simpa using Int.zpow_log_le_self (b := 2) (by norm_num) hpos
  calc |roundTo p q - q| ≤ lastPlace p q / 2 := roundAt_error (lastPlace_pos p q) q
    _ = 2 ^ (-p : ℤ) * 2 ^ Int.log 2 |q| := by
      rw [lastPlace, show Int.log 2 |q| + 1 - p = -p + Int.log 2 |q| + 1 by ring,
        zpow_add₀ (by norm_num), zpow_add₀ (by norm_num)]
      ring
    _ ≤ 2 ^ (-p : ℤ) * |q| := by gcongr

theorem roundTo_pos {p : ℕ} {q : ℚ} (hp : 0 < p) (hq : 0 < q) : 0 < roundTo p q := by
  have herr := abs_le.mp (roundTo_relativeError p q)
  have hsmall : (2 : ℚ) ^ (-p : ℤ) < 1 := zpow_lt_one_of_neg₀ (by norm_num) (by omega)
  rw [abs_of_pos hq] at herr
  have := mul_lt_of_lt_one_left hq hsmall
  linarith [herr.1]

theorem roundTo_nonpos {p : ℕ} {q : ℚ} (hq : q ≤ 0) : roundTo p q ≤ 0 := by
  have herr := abs_le.mp (roundTo_relativeError p q)
  have hsmall : (2 : ℚ) ^ (-p : ℤ) ≤ 1 := zpow_le_one_of_nonpos₀ (by norm_num) (by omega)
  rw [abs_of_nonpos hq] at herr
  have := mul_le_of_le_one_left (neg_nonneg.mpr hq) hsmall
  linarith [herr.2]

/-- Integers that fit in the precision are not changed. -/
theorem roundTo_intCast {p : ℕ} {n : ℤ} (hn : |n| < 2 ^ p) : roundTo p n = n := by
  by_cases hz : n = 0
  · subst hz
    simp [roundTo, roundAt, roundHalfEven]
  have hpos : (0 : ℚ) < |(n : ℚ)| := by simpa using hz
  have hlog : Int.log 2 |(n : ℚ)| < p :=
    (Int.lt_zpow_iff_log_lt (by norm_num) hpos).mp (by exact_mod_cast hn)
  -- the last place is a fraction `1 / 2 ^ k`, so the integer is a multiple of it
  obtain ⟨k, hk⟩ : ∃ k : ℕ, Int.log 2 |(n : ℚ)| + 1 - p = -k :=
    ⟨(p - 1 - Int.log 2 |(n : ℚ)|).toNat, by omega⟩
  have hunit : lastPlace p n = (2 ^ k)⁻¹ := by rw [lastPlace, hk, zpow_neg, zpow_natCast]
  have hmul : (n : ℚ) = ((n * 2 ^ k : ℤ) : ℚ) * lastPlace p n := by
    rw [hunit]
    push_cast
    field_simp
  rw [roundTo]
  nth_rewrite 2 [hmul]
  rw [roundAt_mul (lastPlace_pos p n).ne', ← hmul]

end MowerRover.Numeric
