import MowerRover.Json.RoundTrip

/-!
# Numerals with a fixed number of decimals

The format `.8f` of Python and its like: the exact value is rounded to the last
place, ties to even, and the sign stays even where only zeros are left. Such a
numeral is read as a number no further from the value than half a unit of that
place.
-/

namespace MowerRover.Json

open Numeric

/-- The last so many decimal digits of a number. -/
def lastDigits : ℕ → ℕ → List ℕ
  | 0, _ => []
  | places + 1, m => lastDigits places (m / 10) ++ [m % 10]

/-- The magnitude in units of the last place. -/
def scaled (places : ℕ) (q : ℚ) : ℕ := (roundHalfEven (|q| * 10 ^ places)).toNat

def fixedNumeral (places : ℕ) (q : ℚ) : Numeral where
  negative := q < 0
  int := decimalDigits (scaled places q / 10 ^ places)
  frac := lastDigits places (scaled places q)
  exp := 0

/-- A whole text as a number. -/
def readNumber (cs : List Char) : Option ℚ :=
  match Numeral.parse cs with
  | some (n, []) => some (if n.negative then -n.magnitude else n.magnitude)
  | _ => none

theorem length_lastDigits (places m : ℕ) : (lastDigits places m).length = places := by
  induction places generalizing m with
  | zero => rfl
  | succ places ih => rw [lastDigits, List.length_append, ih, List.length_singleton]

theorem lastDigits_lt (places m : ℕ) : ∀ d ∈ lastDigits places m, d < 10 := by
  induction places generalizing m with
  | zero => simp [lastDigits]
  | succ places ih =>
    rw [lastDigits, List.forall_mem_append]
    exact ⟨ih (m / 10), by simpa using Nat.mod_lt m (by norm_num)⟩

theorem digitsValue_lastDigits (places m : ℕ) :
    digitsValue (lastDigits places m) = m % 10 ^ places := by
  induction places generalizing m with
  | zero => simp [lastDigits, digitsValue, Nat.mod_one]
  | succ places ih =>
    have hsingle : digitsValue [m % 10] = m % 10 := by simp [digitsValue]
    rw [lastDigits, digitsValue_append, ih, hsingle, List.length_singleton, pow_one, pow_succ',
      Nat.mod_mul, add_comm, mul_comm]

theorem fixedNumeral_wellFormed (places : ℕ) (q : ℚ) : (fixedNumeral places q).WellFormed where
  int_digits := decimalDigits_lt _
  frac_digits := lastDigits_lt _ _
  int_lead := decimalDigits_lead _

theorem fixedNumeral_magnitude (places : ℕ) (q : ℚ) :
    (fixedNumeral places q).magnitude = scaled places q / 10 ^ places := by
  have hvalue : digitsValue ((fixedNumeral places q).int ++ (fixedNumeral places q).frac) =
      scaled places q := by
    simp only [fixedNumeral]
    rw [digitsValue_append, digitsValue_decimalDigits, digitsValue_lastDigits, length_lastDigits]
    exact Nat.div_add_mod' _ _
  have hexp : (fixedNumeral places q).exp - ((fixedNumeral places q).frac.length : ℤ) =
      -(places : ℤ) := by
    simp [fixedNumeral, length_lastDigits]
  rw [Numeral.magnitude, hvalue, hexp, zpow_neg, zpow_natCast, div_eq_mul_inv]

/-- What is read of a number in this format. -/
def roundedTo (places : ℕ) (q : ℚ) : ℚ := roundHalfEven (q * 10 ^ places) / 10 ^ places

theorem roundedTo_error (places : ℕ) (q : ℚ) :
    |roundedTo places q - q| ≤ 1 / (2 * 10 ^ places) := by
  have hpos : (0 : ℚ) < 10 ^ places := by positivity
  have herror := roundHalfEven_error (q * 10 ^ places)
  have hscaled : roundedTo places q - q =
      (roundHalfEven (q * 10 ^ places) - q * 10 ^ places) / 10 ^ places := by
    rw [roundedTo]
    field_simp
  rw [hscaled, abs_div, abs_of_pos hpos]
  calc |(roundHalfEven (q * 10 ^ places) : ℚ) - q * 10 ^ places| / 10 ^ places
      ≤ 1 / 2 / 10 ^ places := by gcongr
    _ = 1 / (2 * 10 ^ places) := by rw [div_div]

theorem signed_scaled (places : ℕ) (q : ℚ) :
    (if q < 0 then -(scaled places q : ℚ) else scaled places q) =
      roundHalfEven (q * 10 ^ places) := by
  have hnonneg : ∀ x : ℚ, 0 ≤ x → ((roundHalfEven x).toNat : ℚ) = roundHalfEven x := by
    intro x hx
    have hzero : roundHalfEven 0 = 0 := by exact_mod_cast roundHalfEven_intCast 0
    have hround : 0 ≤ roundHalfEven x := hzero ▸ roundHalfEven_mono hx
    exact_mod_cast Int.toNat_of_nonneg hround
  rw [scaled, hnonneg _ (by positivity)]
  by_cases hq : q < 0
  · rw [if_pos hq, abs_of_neg hq, neg_mul, roundHalfEven_neg]
    simp
  · rw [if_neg hq, abs_of_nonneg (not_lt.mp hq)]

theorem readNumber_text {n : Numeral} (hn : n.WellFormed) :
    readNumber n.text = some (if n.negative then -n.magnitude else n.magnitude) := by
  have hparse := Numeral.parse_text hn follow_nil
  rw [List.append_nil] at hparse
  rw [readNumber, hparse]

theorem readNumber_fixed (places : ℕ) (q : ℚ) :
    readNumber (fixedNumeral places q).text = some (roundedTo places q) := by
  rw [readNumber_text (fixedNumeral_wellFormed places q), fixedNumeral_magnitude, roundedTo,
    ← signed_scaled]
  congr 1
  by_cases hq : q < 0
  · simp [fixedNumeral, hq, neg_div]
  · simp [fixedNumeral, hq]

theorem readNumber_int (n : ℤ) : readNumber (intNumeral n).text = some n := by
  have hmagnitude : (intNumeral n).magnitude = n.natAbs := by
    simp [intNumeral, Numeral.magnitude, digitsValue_decimalDigits]
  rw [readNumber_text (intNumeral_wellFormed n), hmagnitude, Nat.cast_natAbs]
  congr 1
  by_cases hn : n < 0
  · simp [intNumeral, hn, abs_of_neg hn]
  · simp [intNumeral, hn, abs_of_nonneg (not_lt.mp hn)]

example : (fixedNumeral 8 (-(1 / 3))).text = "-0.33333333".toList := by decide +kernel

end MowerRover.Json
