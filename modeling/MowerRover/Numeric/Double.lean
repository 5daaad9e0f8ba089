import MowerRover.Numeric.SignedFloat

/-!
# Doubles

The floats double precision can represent: infinities, not-a-number, and the
numbers with a significand of 53 bits on a grid no finer than the subnormal one.
They are the values of rounding to the nearest double, and rounding does not
change them.
-/

namespace MowerRover.Numeric

namespace SignedFloat

/-- The exponent of the grid on which a number is rounded. -/
def gridExponent (q : ℚ) : ℤ := max (Int.log 2 |q| - 52) (-1074)

theorem grid_eq (q : ℚ) : max (lastPlace 53 q) (2 ^ (-1074 : ℤ)) = 2 ^ gridExponent q := by
  have hmono : Monotone fun k : ℤ => (2 : ℚ) ^ k := zpow_right_mono₀ (by norm_num)
  rw [gridExponent, hmono.map_max, lastPlace]
  congr 2
  push_cast
  ring

theorem nearest_eq (zeroSign : Bool) (q : ℚ) :
    nearest zeroSign q =
      if 2 ^ 1024 ≤ |roundAt (2 ^ gridExponent q) q| then .inf (q < 0)
      else .fin (if q = 0 then zeroSign else q < 0) |roundAt (2 ^ gridExponent q) q|.toNNRat := by
  rw [nearest, grid_eq]

theorem abs_signed (s : Bool) (q : ℚ≥0) : |signed s q| = q := by
  cases s <;> simp [signed]

/-- A significand of 53 bits lies on the grid. -/
theorem gridExponent_le {n : ℕ} {e : ℤ} (hn : n < 2 ^ 53) (he : -1074 ≤ e) (hpos : 0 < n) :
    gridExponent (n * 2 ^ e) ≤ e := by
  refine max_le ?_ he
  have hq : (0 : ℚ) < n * 2 ^ e := by positivity
  have hlt : (n * 2 ^ e : ℚ) < 2 ^ (53 + e) := by
    rw [zpow_add₀ (by norm_num)]
    gcongr
    exact_mod_cast hn
  have hlog := log_lt_of_lt hq hlt
  rw [abs_of_pos hq]
  omega

theorem roundAt_grid {s : Bool} {n : ℕ} {e : ℤ} (hn : n < 2 ^ 53) (he : -1074 ≤ e) :
    roundAt (2 ^ gridExponent (signed s (n * 2 ^ e))) (signed s (n * 2 ^ e)) =
      signed s (n * 2 ^ e) := by
  rcases n.eq_zero_or_pos with rfl | hpos
  · cases s <;> simp [signed, roundAt, roundHalfEven]
  set k := gridExponent (signed s (n * 2 ^ e)) with hk
  have hle : k ≤ e := by
    have habs : gridExponent (signed s (n * 2 ^ e)) = gridExponent (n * 2 ^ e : ℚ) := by
      rw [gridExponent, gridExponent, abs_signed]
      push_cast
      rw [abs_of_pos (by positivity)]
    rw [hk, habs]
    exact gridExponent_le hn he hpos
  obtain ⟨j, hj⟩ : ∃ j : ℕ, e = j + k := ⟨(e - k).toNat, by omega⟩
  have hmul : signed s (n * 2 ^ e) =
      ((if s then -(n * 2 ^ j : ℤ) else n * 2 ^ j : ℤ) : ℚ) * 2 ^ k := by
    rw [signed, hj]
    cases s <;> push_cast <;> simp [zpow_add₀, mul_assoc]
  rw [hmul]
  exact roundAt_mul (by positivity) _

/-- A double is its own nearest double. -/
theorem nearest_of_isDouble {s : Bool} {q : ℚ≥0} (h : (fin s q).IsDouble) :
    nearest s (signed s q) = .fin s q := by
  obtain ⟨n, e, hn, he, rfl, hlt⟩ := h
  rw [nearest_eq, roundAt_grid hn he, abs_signed]
  have hsmall : ¬ (2 : ℚ) ^ 1024 ≤ ((n * 2 ^ e : ℚ≥0) : ℚ) := by
    rw [not_le]
    exact_mod_cast hlt
  rw [if_neg hsmall]
  congr 1
  · rcases eq_or_ne (n * 2 ^ e : ℚ≥0) 0 with hz | hz
    · simp [hz, signed]
    · have hpos : (0 : ℚ) < ((n * 2 ^ e : ℚ≥0) : ℚ) := by
        exact_mod_cast pos_iff_ne_zero.mpr hz
      cases s
      · simp only [signed, Bool.false_eq_true, if_false]
        rw [if_neg hpos.ne']
        simpa using hpos.le
      · simp only [signed, if_true]
        rw [if_neg (neg_ne_zero.mpr hpos.ne')]
        simpa using hpos
  · exact NNRat.toNNRat_coe _

/-- What rounding gives is a double. -/
theorem isDouble_nearest (zeroSign : Bool) (q : ℚ) : (nearest zeroSign q).IsDouble := by
  rw [nearest_eq]
  by_cases hbig : 2 ^ 1024 ≤ |roundAt (2 ^ gridExponent q) q|
  · rw [if_pos hbig]
    trivial
  rw [if_neg hbig]
  set k := gridExponent q with hk
  set m := roundHalfEven (q / 2 ^ k) with hm
  have hround : |roundAt (2 ^ k) q| = (m.natAbs : ℚ) * 2 ^ k := by
    rw [roundAt, ← hm, abs_mul, abs_of_pos (by positivity : (0 : ℚ) < 2 ^ k), Nat.cast_natAbs,
      Int.cast_abs]
  have hbound : m.natAbs ≤ 2 ^ 53 := by
    have hscaled : |q / 2 ^ k| < 2 ^ 53 := by
      rw [abs_div, abs_of_pos (by positivity : (0 : ℚ) < 2 ^ k), div_lt_iff₀ (by positivity)]
      calc |q| < 2 ^ (Int.log 2 |q| + 1) := by
            simpa using Int.lt_zpow_succ_log_self (b := 2) (by norm_num) |q|
        _ ≤ 2 ^ (53 + k) := by
            have : Int.log 2 |q| - 52 ≤ k := le_max_left _ _
            exact zpow_le_zpow_right₀ (by norm_num) (by omega)
        _ = 2 ^ 53 * 2 ^ k := by
            rw [zpow_add₀ (by norm_num)]
            norm_num
    have herr := abs_le.mp (roundHalfEven_error (q / 2 ^ k))
    have hx := abs_lt.mp hscaled
    rw [← hm] at herr
    have hhi : (m : ℚ) < (2 ^ 53 + 1 : ℤ) := by push_cast; linarith [herr.2, hx.2]
    have hlo : ((-(2 ^ 53 + 1) : ℤ) : ℚ) < m := by push_cast; linarith [herr.1, hx.1]
    have hhi' : m < 2 ^ 53 + 1 := by exact_mod_cast hhi
    have hlo' : -(2 ^ 53 + 1) < m := by exact_mod_cast hlo
    omega
  have hlt : |roundAt (2 ^ k) q|.toNNRat < 2 ^ 1024 := by
    rw [Rat.toNNRat_lt_iff_lt_coe (abs_nonneg _)]
    push_cast
    exact not_le.mp hbig
  have hvalue : |roundAt (2 ^ k) q|.toNNRat = (m.natAbs : ℚ≥0) * 2 ^ k := by
    rw [hround]
    exact NNRat.toNNRat_coe ((m.natAbs : ℚ≥0) * 2 ^ k) ▸ by push_cast; rfl
  have hk1 : -1074 ≤ k := le_max_right _ _
  rcases hbound.lt_or_eq with hlt53 | heq
  · exact ⟨m.natAbs, k, hlt53, hk1, hvalue, hlt⟩
  · refine ⟨2 ^ 52, k + 1, by norm_num, by omega, ?_, hlt⟩
    rw [hvalue, heq, zpow_add₀ (by norm_num)]
    push_cast
    ring

theorem lt_of_small {n : ℕ} {e : ℤ} (hn : n < 2 ^ 24) (he : e ≤ 104) :
    (n * 2 ^ e : ℚ≥0) < 2 ^ 1024 := by
  calc (n * 2 ^ e : ℚ≥0) ≤ 2 ^ 24 * 2 ^ (104 : ℤ) := by
        gcongr
        · exact_mod_cast hn.le
        · norm_num
    _ = 2 ^ 128 := by norm_num
    _ < 2 ^ 1024 := pow_lt_pow_right₀ (by norm_num) (by norm_num)

/-- Every single-precision pattern is that of a double. -/
theorem isDouble_ofBits (b : ℕ) : (ofBits b).IsDouble := by
  unfold ofBits
  dsimp only
  split_ifs with hfin hinf
  · have hf := Nat.mod_lt (b % 2 ^ 31) (show 0 < 2 ^ 23 by norm_num)
    unfold magnitudeOf
    split_ifs
    · exact ⟨_, -149, by omega, by norm_num, rfl, lt_of_small (by omega) (by norm_num)⟩
    · refine ⟨_, (b % 2 ^ 31 / 2 ^ 23 : ℕ) - 150, ?_, by omega, rfl, lt_of_small ?_ ?_⟩ <;> omega
  · trivial
  · trivial

theorem isDouble_sub (x y : SignedFloat) : (x.sub y).IsDouble := by
  cases x with
  | fin s q =>
    cases y with
    | fin t r => exact isDouble_nearest _ _
    | inf t => trivial
    | nan => trivial
  | inf s =>
    cases y with
    | fin t r => trivial
    | inf t =>
      change (if s = t then nan else inf s).IsDouble
      split_ifs <;> trivial
    | nan => trivial
  | nan => cases y <;> trivial

end SignedFloat

/-- A float of double precision. -/
structure Double where
  value : SignedFloat
  isDouble : value.IsDouble

namespace Double

@[ext] theorem ext {x y : Double} (h : x.value = y.value) : x = y := by
  cases x
  cases y
  simpa using h

instance : DecidableEq Double := fun x y =>
  decidable_of_iff (x.value = y.value) ⟨ext, congrArg value⟩

/-- The double nearest to an exact number; `zeroSign` is the sign of an exact zero. -/
def ofRat (zeroSign : Bool) (q : ℚ) : Double :=
  ⟨SignedFloat.nearest zeroSign q, SignedFloat.isDouble_nearest zeroSign q⟩

def ofInt (n : ℤ) : Double := ofRat false n

/-- The double of a single-precision pattern. -/
def ofBits (b : ℕ) : Double := ⟨SignedFloat.ofBits b, SignedFloat.isDouble_ofBits b⟩

def infinity (negative : Bool) : Double := ⟨.inf negative, trivial⟩

def nan : Double := ⟨.nan, trivial⟩

def zero : Double := ofRat false 0

/-- Division by a positive number. -/
def divPos (x : Double) (d : ℚ) : Double :=
  match x.value with
  | .fin s q => ofRat s (SignedFloat.signed s q / d)
  | .inf s => infinity s
  | .nan => nan

def mul (x y : Double) : Double :=
  match x.value, y.value with
  | .nan, _ | _, .nan => nan
  | .inf s, .inf s' => infinity (s ^^ s')
  | .inf s, .fin s' q | .fin s' q, .inf s => if q = 0 then nan else infinity (s ^^ s')
  | .fin s q, .fin s' q' => ofRat (s ^^ s') (SignedFloat.signed s q * SignedFloat.signed s' q')

/-- Division; dividing by zero raises in Python and is not asked for. -/
def div (x y : Double) : Double :=
  match x.value, y.value with
  | .nan, _ | _, .nan | .inf _, .inf _ => nan
  | .inf s, .fin s' _ => infinity (s ^^ s')
  | .fin s _, .inf s' => ofRat (s ^^ s') 0
  | .fin s q, .fin s' q' => ofRat (s ^^ s') (SignedFloat.signed s q / SignedFloat.signed s' q')

/-- `x < y`; false with not-a-number. -/
def lt (x y : Double) : Bool :=
  match x.value, y.value with
  | .nan, _ | _, .nan => false
  | .inf s, .inf s' => s && !s'
  | .inf s, .fin _ _ => s
  | .fin _ _, .inf s' => !s'
  | .fin s q, .fin s' q' => SignedFloat.signed s q < SignedFloat.signed s' q'

/-- `round(x, 1)`. -/
def round1 (x : Double) : Double :=
  match x.value with
  | .fin s q => ofRat s (roundAt (1 / 10) (SignedFloat.signed s q))
  | _ => x

def isFinite (x : Double) : Bool :=
  match x.value with
  | .fin _ _ => true
  | _ => false

def sub (x y : Double) : Double := ⟨x.value.sub y.value, SignedFloat.isDouble_sub _ _⟩

end Double
end MowerRover.Numeric
