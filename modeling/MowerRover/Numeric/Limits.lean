import MowerRover.Numeric.Double
import MowerRover.Numeric.StructFormat
import MowerRover.Yaml

/-!
# Where rounding reaches a bound

A number rounded to a double stays below a whole number exactly when it is more
than half a unit of the last place away from it. A double packs as a single
unless its nearest single would be one past the largest.
-/

namespace MowerRover.Numeric

/-- The nearest double, without the limit on its exponent. -/
def roundDouble (q : ℚ) : ℚ := roundAt (max (lastPlace 53 q) (2 ^ (-1074 : ℤ))) q

theorem ofRat_eq (q : ℚ) :
    PyFloat.ofRat q =
      if 2 ^ 1024 ≤ |roundDouble q| then .inf (roundDouble q < 0) else .fin (roundDouble q) := rfl

theorem roundDouble_neg (q : ℚ) : roundDouble (-q) = -roundDouble q := by
  rw [roundDouble, roundDouble, lastPlace, abs_neg, roundAt_neg]
  rfl

section Binade

variable {N e : ℕ} {q : ℚ}

/-- The grid of a double in a binade. -/
theorem roundDouble_eq (hlo : 2 ^ e ≤ q) (hhi : q < 2 ^ (e + 1)) :
    roundDouble q = roundAt (2 ^ (e - 52 : ℤ)) q := by
  have hq : |q| = q := abs_of_nonneg (le_trans (by positivity) hlo)
  have hplace : lastPlace 53 q = 2 ^ (e - 52 : ℤ) := by
    rw [lastPlace_eq 53 (e := e)]
    · congr 1
      push_cast
      ring
    · rw [hq, zpow_natCast]
      exact hlo
    · rw [hq]
      exact_mod_cast hhi
  have hnormal : (2 : ℚ) ^ (-1074 : ℤ) ≤ 2 ^ (e - 52 : ℤ) :=
    zpow_le_zpow_right₀ (by norm_num) (by omega)
  rw [roundDouble, hplace, max_eq_left hnormal]

/-- Below the binade the grid is finer than a unit. -/
theorem roundDouble_lt_of_small (he : e ≤ 51) (hlo : 2 ^ e < N) (hq : 0 ≤ q) (hsmall : q < 2 ^ e) :
    roundDouble q < N := by
  have hN : (2 : ℚ) ^ e + 1 ≤ N := by exact_mod_cast hlo
  have hunit : max (lastPlace 53 q) (2 ^ (-1074 : ℤ)) ≤ 1 := by
    refine max_le ?_ (zpow_le_one_of_nonpos₀ (by norm_num) (by norm_num))
    rcases hq.eq_or_lt with rfl | hpos
    · rw [lastPlace, abs_zero, Int.log_zero_right]
      exact zpow_le_one_of_nonpos₀ (by norm_num) (by norm_num)
    · have hlog : Int.log 2 |q| < e := by
        rw [abs_of_pos hpos]
        exact log_lt_of_lt hpos (by rw [zpow_natCast]; exact hsmall)
      exact zpow_le_one_of_nonpos₀ (by norm_num) (by push_cast; omega)
  have hpos : 0 < max (lastPlace 53 q) (2 ^ (-1074 : ℤ)) := lt_max_of_lt_left (lastPlace_pos 53 q)
  have herr := abs_le.mp (roundAt_error hpos q)
  rw [roundDouble]
  linarith [herr.2]

/-- Above the binade rounding cannot come back into it. -/
theorem le_roundDouble_of_large (he : e ≤ 51) (hhi : N < 2 ^ (e + 1)) (hlarge : 2 ^ (e + 1) ≤ q) :
    N ≤ roundDouble q := by
  have hN : (N : ℚ) + 1 ≤ 2 ^ (e + 1) := by exact_mod_cast hhi
  have hq : 0 ≤ q := le_trans (by positivity) hlarge
  have hnormal : (2 : ℚ) ^ (-1074 : ℤ) ≤ lastPlace 53 q := by
    have hlog : (e : ℤ) + 1 ≤ Int.log 2 |q| := by
      rw [abs_of_nonneg hq]
      exact le_log_of_le (by exact_mod_cast hlarge)
    exact zpow_le_zpow_right₀ (by norm_num) (by push_cast; omega)
  have herr := roundTo_relativeError 53 q
  rw [abs_of_nonneg hq] at herr
  have hsmall : (2 : ℚ) ^ (e + 1) * 2 ^ (-(53 : ℕ) : ℤ) ≤ 1 := by
    rw [← zpow_natCast, ← zpow_add₀ (by norm_num)]
    exact zpow_le_one_of_nonpos₀ (by norm_num) (by push_cast; omega)
  have hfactor : (2 : ℚ) ^ (e + 1) * (1 - 2 ^ (-(53 : ℕ) : ℤ)) ≤ q * (1 - 2 ^ (-(53 : ℕ) : ℤ)) :=
    mul_le_mul_of_nonneg_right hlarge (by norm_num)
  rw [roundDouble, max_eq_left hnormal]
  rw [roundTo] at herr
  linarith [(abs_le.mp herr).1]

/-- A whole number inside a binade is reached from half a unit of the last place below on. -/
theorem roundDouble_lt_iff (he : e ≤ 51) (hlo : 2 ^ e < N) (hhi : N < 2 ^ (e + 1)) (hq : 0 ≤ q) :
    roundDouble q < N ↔ q < N - 2 ^ (e - 53 : ℤ) := by
  have hN : (2 : ℚ) ^ e + 1 ≤ N := by exact_mod_cast hlo
  have hN' : (N : ℚ) + 1 ≤ 2 ^ (e + 1) := by exact_mod_cast hhi
  have hhalf : (2 : ℚ) ^ (e - 53 : ℤ) ≤ 1 := zpow_le_one_of_nonpos₀ (by norm_num) (by omega)
  have hpos : (0 : ℚ) < 2 ^ (e - 53 : ℤ) := by positivity
  rcases lt_or_ge q (2 ^ e) with hsmall | hlarge
  · have hround := roundDouble_lt_of_small he hlo hq hsmall
    exact ⟨fun _ => by linarith, fun _ => hround⟩
  rcases lt_or_ge q (2 ^ (e + 1)) with hinside | houtside
  · have hunit : (0 : ℚ) < 2 ^ (e - 52 : ℤ) := by positivity
    have hgrid : (N : ℚ) = ((N * 2 ^ (52 - e) : ℤ) : ℚ) * 2 ^ (e - 52 : ℤ) := by
      have hzero : ((52 - e : ℕ) : ℤ) + (e - 52) = 0 := by omega
      push_cast
      rw [mul_assoc, ← zpow_natCast, ← zpow_add₀ (by norm_num), hzero, zpow_zero, mul_one]
    have heven : Even (N * 2 ^ (52 - e) : ℤ) := by
      obtain ⟨k, hk⟩ : ∃ k, 52 - e = k + 1 := ⟨51 - e, by omega⟩
      rw [hk, pow_succ]
      exact ⟨N * 2 ^ k, by ring⟩
    have hstep : (2 : ℚ) ^ (e - 53 : ℤ) = 1 / 2 * 2 ^ (e - 52 : ℤ) := by
      rw [show (e - 52 : ℤ) = (e - 53) + 1 by ring, zpow_add_one₀ (by norm_num)]
      ring
    rw [roundDouble_eq hlarge hinside, roundAt, hgrid, hstep, ← sub_mul,
      mul_lt_mul_iff_of_pos_right hunit, Int.cast_lt, ← not_le, le_roundHalfEven_iff heven, not_le,
      div_lt_iff₀ hunit]
  · have hround := le_roundDouble_of_large he hhi houtside
    exact ⟨fun h => absurd h (not_lt.mpr hround), fun h => by linarith⟩

theorem abs_roundDouble_lt_iff (he : e ≤ 51) (hlo : 2 ^ e < N) (hhi : N < 2 ^ (e + 1)) :
    |roundDouble q| < N ↔ |q| < N - 2 ^ (e - 53 : ℤ) := by
  have habs : |roundDouble q| = |roundDouble (|q|)| := by
    rcases abs_choice q with h | h
    · rw [h]
    · rw [h, roundDouble_neg, abs_neg]
  have hnonneg : 0 ≤ roundDouble (|q|) := by
    have hpos : 0 < max (lastPlace 53 |q|) (2 ^ (-1074 : ℤ)) :=
      lt_max_of_lt_left (lastPlace_pos 53 _)
    have hzero : roundAt (max (lastPlace 53 |q|) (2 ^ (-1074 : ℤ))) 0 = 0 := by
      simp [roundAt, roundHalfEven]
    rw [roundDouble, ← hzero]
    exact roundAt_mono hpos (abs_nonneg q)
  rw [habs, abs_of_nonneg hnonneg]
  exact roundDouble_lt_iff he hlo hhi (abs_nonneg q)

theorem abs_towardsZero (r : ℚ) : |if r < 0 then ⌈r⌉ else ⌊r⌋| = ⌊|r|⌋ := by
  split_ifs with hneg
  · rw [abs_of_neg hneg, Int.floor_neg]
    exact abs_of_nonpos (Int.ceil_nonpos.mpr hneg.le)
  · rw [abs_of_nonneg (not_lt.mp hneg)]
    exact abs_of_nonneg (Int.floor_nonneg.mpr (not_lt.mp hneg))

/-- The whole part of a rounded number is within a bound. -/
theorem truncate_ofRat_iff (he : e ≤ 51) (hlo : 2 ^ e < N + 1) (hhi : N + 1 < 2 ^ (e + 1)) :
    (∃ n, truncate (PyFloat.ofRat q) = .ok n ∧ |n| ≤ N) ↔
      |q| < ((N + 1 : ℕ) : ℚ) - 2 ^ (e - 53 : ℤ) := by
  have habs : |if roundDouble q < 0 then ⌈roundDouble q⌉ else ⌊roundDouble q⌋| ≤ (N : ℤ) ↔
      |roundDouble q| < (N + 1 : ℕ) := by
    rw [abs_towardsZero, ← Int.lt_add_one_iff, Int.floor_lt]
    push_cast
    rfl
  rw [← abs_roundDouble_lt_iff he hlo hhi, ← habs, ofRat_eq]
  by_cases hbig : 2 ^ 1024 ≤ |roundDouble q|
  · have hbound : ((N + 1 : ℕ) : ℚ) < 2 ^ 1024 := by
      calc ((N + 1 : ℕ) : ℚ) < 2 ^ (e + 1) := by exact_mod_cast hhi
        _ ≤ 2 ^ 1024 := pow_le_pow_right₀ (by norm_num) (by omega)
    rw [if_pos hbig, habs]
    simp only [truncate, throw_eq_error, reduceCtorEq, false_and, exists_false, false_iff, not_lt]
    exact (hbound.trans_le hbig).le
  · rw [if_neg hbig]
    simp [truncate]

end Binade

theorem abs_roundDouble_eq_mul {q : ℚ} (h : |roundDouble q| < 2 ^ 1024) :
    ∃ (n : ℕ) (e : ℤ), n < 2 ^ 53 ∧ -1074 ≤ e ∧ |roundDouble q| = n * 2 ^ e := by
  have hround : roundDouble q = roundAt (2 ^ SignedFloat.gridExponent q) q := by
    rw [roundDouble, SignedFloat.grid_eq]
  have hdouble := SignedFloat.isDouble_nearest false q
  rw [SignedFloat.nearest_eq, ← hround, if_neg (not_le.mpr h)] at hdouble
  obtain ⟨n, e, hn, he, hmul, -⟩ := hdouble
  refine ⟨n, e, hn, he, ?_⟩
  have hcast : ((|roundDouble q|.toNNRat : ℚ≥0) : ℚ) = ((n * 2 ^ e : ℚ≥0) : ℚ) := by rw [hmul]
  push_cast at hcast
  rwa [Rat.coe_toNNRat _ (abs_nonneg _)] at hcast

/-- An integer with a significand of 53 bits is a double. -/
theorem roundDouble_intCast {i : ℤ} {m k : ℕ} (hm : m < 2 ^ 53) (hi : |i| = m * 2 ^ k) :
    roundDouble i = i := by
  have hsigned : SignedFloat.signed (i < 0) (m * 2 ^ (k : ℤ)) = i := by
    have hcast : ((m * 2 ^ (k : ℤ) : ℚ≥0) : ℚ) = |(i : ℚ)| := by
      push_cast
      exact_mod_cast hi.symm
    rw [SignedFloat.signed, hcast]
    by_cases hneg : i < 0
    · have hneg' : (i : ℚ) < 0 := by exact_mod_cast hneg
      rw [if_pos (decide_eq_true hneg), abs_of_neg hneg', neg_neg]
    · have hpos : (0 : ℚ) ≤ i := by exact_mod_cast not_lt.mp hneg
      rw [if_neg (by simpa using hneg), abs_of_nonneg hpos]
  rw [roundDouble, SignedFloat.grid_eq, ← hsigned]
  exact SignedFloat.roundAt_grid hm (by omega)

/-- The whole part of a double is a double. -/
theorem floatOfInt_truncate {q : ℚ} {i : ℤ} (h : truncate (PyFloat.ofRat q) = .ok i) :
    floatOfInt i = .ok (.fin i) := by
  rw [ofRat_eq] at h
  by_cases hbig : 2 ^ 1024 ≤ |roundDouble q|
  · rw [if_pos hbig] at h
    simp [truncate] at h
  rw [if_neg hbig, truncate] at h
  have habs : |i| = ⌊|roundDouble q|⌋ := by rw [← Except.ok.inj h, abs_towardsZero]
  obtain ⟨n, e, hn, -, hmul⟩ := abs_roundDouble_eq_mul (not_le.mp hbig)
  obtain ⟨m, k, hm, hi⟩ : ∃ m k : ℕ, m < 2 ^ 53 ∧ |i| = m * 2 ^ k := by
    rw [hmul] at habs
    rcases le_or_gt 0 e with he | he
    · obtain ⟨k, rfl⟩ := Int.eq_ofNat_of_zero_le he
      refine ⟨n, k, hn, ?_⟩
      rw [habs, zpow_natCast]
      exact_mod_cast Int.floor_intCast (R := ℚ) (n * 2 ^ k)
    -- below the point of the number its whole part has fewer bits than its significand
    · have hle : (n : ℚ) * 2 ^ e ≤ n :=
        mul_le_of_le_one_right n.cast_nonneg (zpow_le_one_of_nonpos₀ (by norm_num) he.le)
      have hfloor : ⌊(n : ℚ) * 2 ^ e⌋ ≤ n := by
        have := Int.floor_le_floor hle
        rwa [Int.floor_natCast] at this
      refine ⟨i.natAbs, 0, ?_, by simp⟩
      rw [Int.abs_eq_natAbs] at habs
      omega
  have hround := roundDouble_intCast hm hi
  have hsmall : |(i : ℚ)| < 2 ^ 1024 := by
    have hle : ((|i| : ℤ) : ℚ) ≤ |roundDouble q| := by
      rw [habs]
      exact Int.floor_le _
    push_cast at hle
    exact hle.trans_lt (not_le.mp hbig)
  have hfin : PyFloat.ofRat (i : ℚ) = .fin i := by rw [ofRat_eq, hround, if_neg (not_le.mpr hsmall)]
  delta floatOfInt
  rw [hfin]
  rfl

/-- Rounding keeps the sign of what is not below one. -/
theorem roundDouble_pos {q : ℚ} (hq : 1 ≤ q) : 0 < roundDouble q := by
  have hpos : 0 < q := by linarith
  set unit := max (lastPlace 53 q) (2 ^ (-1074 : ℤ)) with hunit
  have hunit_pos : 0 < unit := lt_max_of_lt_left (lastPlace_pos 53 q)
  have hle : unit ≤ q := by
    apply max_le
    · calc lastPlace 53 q ≤ 2 ^ Int.log 2 |q| := by
            rw [lastPlace]
            exact zpow_le_zpow_right₀ (by norm_num) (by omega)
        _ ≤ |q| := by simpa using Int.zpow_log_le_self (b := 2) (by norm_num) (abs_pos.mpr hpos.ne')
        _ = q := abs_of_pos hpos
    · exact le_trans (zpow_le_one_of_nonpos₀ (by norm_num) (by norm_num)) hq
  calc 0 < unit := hunit_pos
    _ = roundAt unit unit := by simpa using (roundAt_mul hunit_pos.ne' 1).symm
    _ ≤ roundAt unit q := roundAt_mono hunit_pos hle

theorem floatOfInt_pos {i : ℤ} {f : PyFloat} (hi : 0 < i) (h : floatOfInt i = .ok f) :
    f.le (.fin 0) = false := by
  have hround : 0 < roundDouble i := roundDouble_pos (by exact_mod_cast hi)
  unfold floatOfInt at h
  rw [ofRat_eq] at h
  split_ifs at h
  obtain rfl := Except.ok.inj h
  simpa [PyFloat.le] using hround

namespace PyFloat

/-- The float with the sign of zero lost. -/
def toSigned : PyFloat → SignedFloat
  | .fin q => .fin (q < 0) |q|.toNNRat
  | .inf s => .inf s
  | .nan => .nan

/-- The nearest single is not past the largest; infinities and not-a-number are singles. -/
def FitsSingle : PyFloat → Prop
  | .fin q => |q| < 2 ^ 128 - 2 ^ 103
  | _ => True

end PyFloat

theorem pow_mul_zpow_sub (k : ℕ) (e : ℤ) : (2 : ℚ) ^ k * 2 ^ (e - k) = 2 ^ e := by
  rw [← zpow_natCast, ← zpow_add₀ (by norm_num)]
  congr 1
  ring

/-- The significand of a magnitude is at most the next power. -/
theorem significand_le (q : ℚ≥0) :
    (roundHalfEven (q / 2 ^ (max (Int.log 2 (q : ℚ)) (-126) - 23))).toNat ≤ 2 ^ 24 := by
  have hlt : (q : ℚ) < 2 ^ (max (Int.log 2 (q : ℚ)) (-126) + 1) := by
    calc (q : ℚ) < 2 ^ (Int.log 2 (q : ℚ) + 1) := by
          simpa using Int.lt_zpow_succ_log_self (b := 2) (by norm_num) (q : ℚ)
      _ ≤ 2 ^ (max (Int.log 2 (q : ℚ)) (-126) + 1) :=
          zpow_le_zpow_right₀ (by norm_num) (by omega)
  have hquot : (q : ℚ) / 2 ^ (max (Int.log 2 (q : ℚ)) (-126) - 23) ≤ ((2 ^ 24 : ℤ) : ℚ) := by
    have hpow := pow_mul_zpow_sub 24 (max (Int.log 2 (q : ℚ)) (-126) + 1)
    rw [show max (Int.log 2 (q : ℚ)) (-126) + 1 - (24 : ℕ) =
      max (Int.log 2 (q : ℚ)) (-126) - 23 by push_cast; ring] at hpow
    rw [div_le_iff₀ (by positivity), show ((2 ^ 24 : ℤ) : ℚ) = 2 ^ 24 by norm_num, hpow]
    exact hlt.le
  have hround := roundHalfEven_mono hquot
  rw [roundHalfEven_intCast] at hround
  omega

/-- The nearest single is a number exactly when the magnitude is more than half a unit of the last
place away from the first power that is none. -/
theorem nearestMagnitude_lt_iff (q : ℚ≥0) :
    SignedFloat.nearestMagnitude q < 255 * 2 ^ 23 ↔ (q : ℚ) < 2 ^ 128 - 2 ^ 103 := by
  by_cases hq : q = 0
  · subst hq
    norm_num [SignedFloat.nearestMagnitude]
  have hpos : (0 : ℚ) < q := by positivity
  have hsignificand := significand_le q
  rw [SignedFloat.nearestMagnitude, if_neg hq]
  generalize he : max (Int.log 2 (q : ℚ)) (-126) = e at hsignificand ⊢
  dsimp only
  rcases lt_or_ge (q : ℚ) (2 ^ 127) with hsmall | hlarge
  · have hlog : Int.log 2 (q : ℚ) < 127 := log_lt_of_lt hpos (by exact_mod_cast hsmall)
    refine ⟨fun _ => hsmall.trans_le (by norm_num), fun _ => ?_⟩
    have hexp : (e + 126).toNat ≤ 252 := by omega
    omega
  · have hlog : 127 ≤ Int.log 2 (q : ℚ) := le_log_of_le (by exact_mod_cast hlarge)
    rcases lt_or_ge (q : ℚ) (2 ^ 128) with hinside | houtside
    · have hlog' : Int.log 2 (q : ℚ) < 128 := log_lt_of_lt hpos (by exact_mod_cast hinside)
      obtain rfl : e = 127 := by omega
      have htop : (2 ^ 24 : ℤ) ≤ roundHalfEven (q / 2 ^ (127 - 23 : ℤ)) ↔
          2 ^ 128 - 2 ^ 103 ≤ (q : ℚ) := by
        rw [le_roundHalfEven_iff ⟨2 ^ 23, by norm_num⟩, le_div_iff₀ (by positivity)]
        norm_num
      rw [← not_le, ← not_le, ← htop]
      have hexp : ((127 : ℤ) + 126).toNat = 253 := rfl
      omega
    · have hlog' : 128 ≤ Int.log 2 (q : ℚ) := le_log_of_le (by exact_mod_cast houtside)
      have hlow : (2 ^ 23 : ℤ) ≤ roundHalfEven (q / 2 ^ (e - 23)) := by
        have hgrid : ((2 ^ 23 : ℤ) : ℚ) ≤ q / 2 ^ (e - 23) := by
          rw [le_div_iff₀ (by positivity)]
          have hself : (2 : ℚ) ^ e ≤ q := by
            rw [← he, max_eq_left (by omega)]
            simpa using Int.zpow_log_le_self (b := 2) (by norm_num) hpos
          rw [show ((2 ^ 23 : ℤ) : ℚ) = 2 ^ 23 by norm_num]
          exact (pow_mul_zpow_sub 23 e).trans_le hself
        have hround := roundHalfEven_mono hgrid
        rwa [roundHalfEven_intCast] at hround
      have hexp : 254 ≤ (e + 126).toNat := by omega
      refine ⟨fun h => by omega, fun h => absurd h (not_lt.mpr (le_trans (by norm_num) houtside))⟩

/-- A double that fits is packed, another is refused. -/
theorem packFloat_toSigned (x : PyFloat) :
    (∃ bytes, StructField.packFloat x.toSigned = .ok bytes) ↔ x.FitsSingle := by
  cases x with
  | fin q =>
    have hcast : ((|q|.toNNRat : ℚ≥0) : ℚ) = |q| := Rat.coe_toNNRat _ (abs_nonneg q)
    have hlt := nearestMagnitude_lt_iff |q|.toNNRat
    rw [hcast] at hlt
    rw [PyFloat.toSigned, PyFloat.FitsSingle, ← hlt, StructField.packFloat]
    by_cases hbig : 255 * 2 ^ 23 ≤ SignedFloat.nearestMagnitude |q|.toNNRat
    · rw [if_pos hbig]
      simpa using hbig
    · rw [if_neg hbig]
      simpa using not_le.mp hbig
  | inf s => simp [PyFloat.toSigned, PyFloat.FitsSingle, StructField.packFloat]
  | nan => simp [PyFloat.toSigned, PyFloat.FitsSingle, StructField.packFloat]

end MowerRover.Numeric
