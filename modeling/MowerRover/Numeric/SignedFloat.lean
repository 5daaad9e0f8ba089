import MowerRover.Numeric.Rounding

/-!
# Floats that keep the sign of zero, and their single-precision patterns

A float is a sign and an exact magnitude, an infinity or not-a-number. The
second half reads the 32-bit interchange patterns as such floats and rounds a
float to the nearest pattern; the two are inverse on the patterns that are
numbers and on the floats single precision can represent.
-/

namespace MowerRover.Numeric

inductive SignedFloat
  | fin (negative : Bool) (magnitude : ℚ≥0)
  | inf (negative : Bool)
  | nan
  deriving DecidableEq

namespace SignedFloat

def neg : SignedFloat → SignedFloat
  | .fin s q => .fin (!s) q
  | .inf s => .inf !s
  | .nan => .nan

def signed (s : Bool) (q : ℚ≥0) : ℚ := if s then -q else q

/-- The exact number a finite float stands for; both zeros are `0`. -/
def toRat? : SignedFloat → Option ℚ
  | .fin s q => some (signed s q)
  | .inf _ => none
  | .nan => none

/-- The double nearest to an exact number; `zeroSign` is the sign of an exact zero. -/
def nearest (zeroSign : Bool) (q : ℚ) : SignedFloat :=
  let r := roundAt (max (lastPlace 53 q) (2 ^ (-1074 : ℤ))) q
  if 2 ^ 1024 ≤ |r| then .inf (q < 0)
  else .fin (if q = 0 then zeroSign else q < 0) |r|.toNNRat

def sub : SignedFloat → SignedFloat → SignedFloat
  | .fin s x, .fin t y => nearest (s && !t) (signed s x - signed t y)
  | .nan, _ => .nan
  | _, .nan => .nan
  | .inf s, .inf t => if s = t then .nan else .inf s
  | .inf s, .fin _ _ => .inf s
  | .fin _ _, .inf t => .inf !t

def add (x y : SignedFloat) : SignedFloat := x.sub y.neg

def mul : SignedFloat → SignedFloat → SignedFloat
  | .nan, _ => .nan
  | _, .nan => .nan
  | .inf s, .inf t => .inf (s ^^ t)
  | .inf s, .fin t q => if q = 0 then .nan else .inf (s ^^ t)
  | .fin s q, .inf t => if q = 0 then .nan else .inf (s ^^ t)
  | .fin s q, .fin t r => nearest (s ^^ t) (signed s q * signed t r)

/-- The square root, rounded to the nearest double. It is the root of a number that is not
negative; `math.sqrt` raises for the others. -/
def sqrt : SignedFloat → SignedFloat
  | .fin s q =>
    if q = 0 then .fin s 0
    else
      let place : ℚ≥0 := 2 ^ (Int.log 2 (q : ℚ) / 2 - 52)
      let below := Nat.sqrt ⌊((q / place ^ 2 : ℚ≥0) : ℚ)⌋₊
      let middle : ℚ≥0 := ((below + 1 / 2) * place) ^ 2
      let root := if q < middle ∨ q = middle ∧ Even below then below else below + 1
      .fin false (root * place)
  | .inf s => .inf s
  | .nan => .nan

/-- Division by a positive double. -/
def divPos (x : SignedFloat) (d : ℚ) : SignedFloat :=
  match x with
  | .fin s q => nearest s (signed s q / d)
  | .inf s => .inf s
  | .nan => .nan

theorem toRat?_neg (x : SignedFloat) : x.neg.toRat? = x.toRat?.map (- ·) := by
  cases x with
  | fin s q => cases s <;> simp [neg, toRat?, signed]
  | inf s => rfl
  | nan => rfl

/-- The magnitude the lower 31 bits of a finite pattern stand for. -/
def magnitudeOf (m : ℕ) : ℚ≥0 :=
  if m / 2 ^ 23 = 0 then (m % 2 ^ 23 : ℕ) * 2 ^ (-149 : ℤ)
  else (2 ^ 23 + m % 2 ^ 23 : ℕ) * 2 ^ ((m / 2 ^ 23 : ℕ) - 150 : ℤ)

/-- The float a 32-bit pattern stands for. -/
def ofBits (b : ℕ) : SignedFloat :=
  let negative := decide (b / 2 ^ 31 = 1)
  let m := b % 2 ^ 31
  if m < 255 * 2 ^ 23 then .fin negative (magnitudeOf m)
  else if m = 255 * 2 ^ 23 then .inf negative
  else .nan

/-- The lower 31 bits of the pattern nearest to a magnitude, ties to even. The
carry of a significand rounded up to the next power runs into the exponent. -/
def nearestMagnitude (q : ℚ≥0) : ℕ :=
  if q = 0 then 0
  else
    let e := max (Int.log 2 (q : ℚ)) (-126)
    (e + 126).toNat * 2 ^ 23 + (roundHalfEven (q / 2 ^ (e - 23))).toNat

def signBit (negative : Bool) : ℕ := if negative then 2 ^ 31 else 0

/-- C's conversion of a float to single precision; too large a magnitude becomes infinite. -/
def toBits : SignedFloat → ℕ
  | .fin s q => signBit s + min (nearestMagnitude q) (255 * 2 ^ 23)
  | .inf s => signBit s + 255 * 2 ^ 23
  | .nan => 255 * 2 ^ 23 + 2 ^ 22

/-- Single precision can represent the float. -/
def IsSingle : SignedFloat → Prop
  | .fin _ q => ∃ (n : ℕ) (e : ℤ), n < 2 ^ 24 ∧ -149 ≤ e ∧ e ≤ 104 ∧ q = n * 2 ^ e
  | .inf _ => True
  | .nan => False

/-- Double precision can represent the float. -/
def IsDouble : SignedFloat → Prop
  | .fin _ q => ∃ (n : ℕ) (e : ℤ), n < 2 ^ 53 ∧ -1074 ≤ e ∧ q = n * 2 ^ e ∧ q < 2 ^ 1024
  | .inf _ => True
  | .nan => True

theorem isSingle_natCast {s : Bool} {n : ℕ} (hn : n < 2 ^ 24) : (fin s n).IsSingle :=
  ⟨n, 0, hn, by norm_num, by norm_num, by simp⟩

/-- A significand on the grid of its exponent is not changed. -/
theorem nearestMagnitude_mul {n : ℕ} {e : ℤ} (hn0 : 0 < n) (hn : n < 2 ^ 24) (he : -126 ≤ e)
    (hnormal : e = -126 ∨ 2 ^ 23 ≤ n) :
    nearestMagnitude (n * 2 ^ (e - 23)) = (e + 126).toNat * 2 ^ 23 + n := by
  have hq0 : (n * 2 ^ (e - 23) : ℚ≥0) ≠ 0 := by positivity
  have hcast : ((n * 2 ^ (e - 23) : ℚ≥0) : ℚ) = n * 2 ^ (e - 23) := by push_cast; rfl
  have hpos : (0 : ℚ) < n * 2 ^ (e - 23) := by positivity
  have hhi : (n * 2 ^ (e - 23) : ℚ) < 2 ^ (e + 1) := by
    calc (n * 2 ^ (e - 23) : ℚ) < 2 ^ 24 * 2 ^ (e - 23) := by gcongr; exact_mod_cast hn
      _ = 2 ^ (e + 1) := by
        rw [← zpow_natCast, ← zpow_add₀ (by norm_num)]
        congr 1
        push_cast
        ring
  have hlog : max (Int.log 2 (n * 2 ^ (e - 23) : ℚ)) (-126) = e := by
    have hlt := log_lt_of_lt hpos hhi
    rcases hnormal with rfl | hnormal
    · omega
    · have hlo : (2 : ℚ) ^ e ≤ n * 2 ^ (e - 23) := by
        calc (2 : ℚ) ^ e = 2 ^ 23 * 2 ^ (e - 23) := by
              rw [← zpow_natCast, ← zpow_add₀ (by norm_num)]
              congr 1
              push_cast
              ring
          _ ≤ n * 2 ^ (e - 23) := by gcongr; exact_mod_cast hnormal
      have := le_log_of_le hlo
      omega
  have hgrid : (n * 2 ^ (e - 23) : ℚ) / 2 ^ (e - 23) = (n : ℤ) := by
    rw [mul_div_cancel_right₀ _ (by positivity)]
    push_cast
    rfl
  simp only [nearestMagnitude, if_neg hq0, hcast, hlog, hgrid, roundHalfEven_intCast,
    Int.toNat_natCast]

theorem nearestMagnitude_magnitudeOf (m : ℕ) : nearestMagnitude (magnitudeOf m) = m := by
  have hm := Nat.div_add_mod m (2 ^ 23)
  have hf := Nat.mod_lt m (show 0 < 2 ^ 23 by norm_num)
  unfold magnitudeOf
  split
  · -- a subnormal number: its grid is the finest one
    rename_i h
    by_cases hf0 : m % 2 ^ 23 = 0
    · rw [hf0]
      simp only [nearestMagnitude, Nat.cast_zero, zero_mul, if_true]
      omega
    · have := nearestMagnitude_mul (n := m % 2 ^ 23) (e := -126) (by omega) (by omega) le_rfl
        (.inl rfl)
      norm_num at this ⊢
      omega
  · rename_i h
    have := nearestMagnitude_mul (n := 2 ^ 23 + m % 2 ^ 23) (e := (m / 2 ^ 23 : ℕ) - 127)
      (by omega) (by omega) (by omega) (.inr (by omega))
    rw [show ((m / 2 ^ 23 : ℕ) : ℤ) - 127 - 23 = (m / 2 ^ 23 : ℕ) - 150 by ring] at this
    rw [this]
    omega

theorem toBits_ofBits {b : ℕ} (hb : b < 2 ^ 32) (hnum : ofBits b ≠ .nan) :
    (ofBits b).toBits = b := by
  have hsign : signBit (decide (b / 2 ^ 31 = 1)) = b / 2 ^ 31 * 2 ^ 31 := by
    have : b / 2 ^ 31 < 2 := by omega
    unfold signBit
    split
    · simp_all
    · simp_all; omega
  unfold ofBits at hnum ⊢
  simp only at hnum ⊢
  split_ifs at hnum ⊢ with hfin hinf
  · simp only [toBits, nearestMagnitude_magnitudeOf, hsign]
    omega
  · simp only [toBits, hsign]
    omega
  · exact absurd rfl hnum

/-- Every representable magnitude is that of a pattern. -/
theorem exists_magnitudeOf {n : ℕ} {e : ℤ} (hn : n < 2 ^ 24) (hlo : -149 ≤ e) (hhi : e ≤ 104) :
    ∃ m < 255 * 2 ^ 23, magnitudeOf m = n * 2 ^ e := by
  -- a small significand is shifted up until the exponent is the lowest one
  obtain ⟨k, rfl⟩ : ∃ k : ℕ, e = -149 + k := ⟨(e + 149).toNat, by omega⟩
  induction k generalizing n with
  | zero =>
    refine ⟨n, by omega, ?_⟩
    unfold magnitudeOf
    split
    · rw [show n % 2 ^ 23 = n by omega]
      rfl
    · rw [show 2 ^ 23 + n % 2 ^ 23 = n by omega, show n / 2 ^ 23 = 1 by omega]
      norm_num
  | succ k ih =>
    by_cases hsmall : n < 2 ^ 23
    · obtain ⟨m, hm, hq⟩ := ih (n := 2 * n) (by omega) (by omega) (by omega)
      refine ⟨m, hm, hq.trans ?_⟩
      have hshift : (2 : ℚ≥0) ^ (-149 + (k + 1 : ℕ) : ℤ) = 2 ^ (-149 + k : ℤ) * 2 := by
        rw [← zpow_add_one₀ (by norm_num)]
        congr 1
        push_cast
        ring
      rw [hshift, Nat.cast_mul, Nat.cast_ofNat, mul_comm (2 : ℚ≥0), mul_assoc, mul_comm 2]
    · refine ⟨(k + 1) * 2 ^ 23 + n, by omega, ?_⟩
      rw [magnitudeOf, if_neg (by omega),
        show 2 ^ 23 + ((k + 1) * 2 ^ 23 + n) % 2 ^ 23 = n by omega,
        show ((k + 1) * 2 ^ 23 + n) / 2 ^ 23 = k + 2 by omega,
        show (((k + 2 : ℕ) : ℤ) - 150) = -149 + (k + 1 : ℕ) by push_cast; ring]

/-- Every representable float is that of a pattern, and the pattern found is the one. -/
theorem ofBits_toBits {x : SignedFloat} (hx : x.IsSingle) : ofBits x.toBits = x := by
  obtain ⟨b, hb, rfl⟩ : ∃ b < 2 ^ 32, ofBits b = x := by
    cases x with
    | fin s q =>
      obtain ⟨n, e, hn, hlo, hhi, rfl⟩ := hx
      obtain ⟨m, hm, hq⟩ := exists_magnitudeOf hn hlo hhi
      refine ⟨signBit s + m, ?_, ?_⟩
      · cases s <;> simp [signBit] <;> omega
      · have hmod : (signBit s + m) % 2 ^ 31 = m := by cases s <;> simp [signBit] <;> omega
        have hdiv : decide ((signBit s + m) / 2 ^ 31 = 1) = s := by
          cases s <;> simp [signBit] <;> omega
        simp only [ofBits, hmod, hdiv, if_pos hm, hq]
    | inf s =>
      refine ⟨signBit s + 255 * 2 ^ 23, ?_, ?_⟩ <;> cases s <;> decide
    | nan => exact hx.elim
  rw [toBits_ofBits hb]
  intro h
  rw [h] at hx
  exact hx

theorem toBits_lt (x : SignedFloat) : x.toBits < 2 ^ 32 := by
  cases x with
  | fin s q =>
    simp only [toBits, signBit]
    split <;> omega
  | inf s => cases s <;> decide
  | nan => decide

end SignedFloat
end MowerRover.Numeric
