import MowerRover.Json.Numeral
import MowerRover.Numeric.Double
import Mathlib.Data.List.TakeWhile

/-!
# The shortest decimal of a double

Python prints a float with as few digits as read back as that float, and among
the decimals of that length with the one nearest to it. The number of digits is
searched upwards; the exact expansion, which every double has, bounds the search.
-/

namespace MowerRover.Json

open Numeric

/-- A decimal significand and the power of ten it is multiplied by. -/
abbrev Decimal := ℕ × ℤ

def Decimal.value (d : Decimal) : ℚ := d.1 * 10 ^ d.2

/-- The decimal of `p` digits nearest to `q` among those next to it that read back, if any does. -/
def decimalWith (readsBack : ℚ → Bool) (q : ℚ) (p : ℕ) : Option Decimal :=
  let k := Int.log 10 q + 1 - p
  let candidates := [roundHalfEven (q / 10 ^ k), ⌊q / 10 ^ k⌋, ⌊q / 10 ^ k⌋ + 1]
  (candidates.find? fun m => readsBack (m.toNat * 10 ^ k)).map fun m => (m.toNat, k)

/-- More digits than the exact expansion of any double has. -/
def maxDigits : ℕ := 2100

def shortestDecimal (readsBack : ℚ → Bool) (q : ℚ) : Decimal :=
  ((List.range' 1 maxDigits).findSome? (decimalWith readsBack q)).getD (0, 0)

/-- The significant digits of a decimal, without the zeros at its end. -/
def significant (m : ℕ) : List ℕ := ((Nat.digits 10 m).dropWhile (· = 0)).reverse

/-- The layout of `float.__repr__`: with an exponent when the decimal point would stand far off. -/
def layout (negative : Bool) (d : Decimal) : Numeral :=
  let ds := significant d.1
  let point : ℤ := (Nat.digits 10 d.1).length + d.2
  if 16 < point ∨ point ≤ -4 then ⟨negative, ds.take 1, ds.drop 1, point - 1⟩
  else if point ≤ 0 then ⟨negative, [0], List.replicate (-point).toNat 0 ++ ds, 0⟩
  else if ds.length ≤ point.toNat then
    ⟨negative, ds ++ List.replicate (point.toNat - ds.length) 0, [0], 0⟩
  else ⟨negative, ds.take point.toNat, ds.drop point.toNat, 0⟩

/-- The double a sign and a magnitude are read as. -/
def readDouble (negative : Bool) (r : ℚ) : Double :=
  Double.ofRat negative (if negative then -r else r)

def Numeral.toDouble (n : Numeral) : Double := readDouble n.negative n.magnitude

def readsAs (negative : Bool) (q : ℚ≥0) (r : ℚ) : Bool :=
  (readDouble negative r).value = .fin negative q

/-- The numeral Python prints for a finite float. -/
def finiteNumeral (negative : Bool) (q : ℚ≥0) : Numeral :=
  if q = 0 then ⟨negative, [0], [0], 0⟩
  else layout negative (shortestDecimal (readsAs negative q) q)

section Layout

theorem digitsValue_append (ds es : List ℕ) :
    digitsValue (ds ++ es) = digitsValue ds * 10 ^ es.length + digitsValue es := by
  simp [digitsValue, Nat.ofDigits_append]
  ring

theorem digitsValue_replicate_zero (n : ℕ) : digitsValue (List.replicate n 0) = 0 := by
  induction n with
  | zero => rfl
  | succ n ih => rw [List.replicate_succ, digitsValue_zero_cons, ih]

theorem ofDigits_dropWhile (l : List ℕ) :
    Nat.ofDigits 10 l =
      10 ^ (l.length - (l.dropWhile (· = 0)).length) * Nat.ofDigits 10 (l.dropWhile (· = 0)) := by
  induction l with
  | nil => simp
  | cons d l ih =>
    by_cases hd : d = 0
    · have hle := l.dropWhile_sublist (p := fun x => decide (x = 0)) |>.length_le
      rw [Nat.ofDigits_cons, ih, List.dropWhile_cons_of_pos (by simpa using hd), List.length_cons,
        Nat.succ_sub hle, pow_succ, hd]
      ring
    · simp [List.dropWhile_cons_of_neg, hd]

theorem value_significant (m : ℕ) :
    (m : ℚ) = digitsValue (significant m) *
      10 ^ (((Nat.digits 10 m).length : ℤ) - (significant m).length) := by
  have hle := (Nat.digits 10 m).dropWhile_sublist (p := fun x => decide (x = 0)) |>.length_le
  have hvalue := ofDigits_dropWhile (Nat.digits 10 m)
  rw [Nat.ofDigits_digits] at hvalue
  rw [significant, digitsValue, List.reverse_reverse, List.length_reverse, ← Nat.cast_sub hle,
    zpow_natCast]
  exact_mod_cast hvalue.trans (mul_comm _ _)

theorem significant_lt (m : ℕ) : ∀ d ∈ significant m, d < 10 := by
  intro d hd
  have hmem := (List.dropWhile_sublist (fun x => decide (x = 0))).subset (List.mem_reverse.mp hd)
  exact Nat.digits_lt_base (by norm_num) hmem

theorem significant_lead {m : ℕ} (hm : m ≠ 0) : ∃ d ds, significant m = d :: ds ∧ d ≠ 0 := by
  have hne : Nat.digits 10 m ≠ [] := Nat.digits_ne_nil_iff_ne_zero.mpr hm
  have hlast := Nat.getLast_digit_ne_zero 10 hm
  obtain ⟨dropped, hdropped⟩ := List.dropWhile_suffix (l := Nat.digits 10 m) (· = 0)
  rcases ((Nat.digits 10 m).dropWhile (· = 0)).eq_nil_or_concat' with hnil | ⟨ds, d, hds⟩
  · have hzero := (List.dropWhile_eq_nil_iff.mp hnil) _ (List.getLast_mem hne)
    exact absurd (by simpa using hzero) hlast
  · refine ⟨d, ds.reverse, by simp [significant, hds], ?_⟩
    rw [hds] at hdropped
    have heq : (Nat.digits 10 m).getLast hne = d := by simp [← hdropped]
    rwa [heq] at hlast

/-- The layout stands for the decimal. -/
theorem layout_magnitude (negative : Bool) (d : Decimal) :
    (layout negative d).magnitude = d.value := by
  obtain ⟨m, k⟩ := d
  have hm := value_significant m
  set ds := significant m with hds
  set point : ℤ := (Nat.digits 10 m).length + k with hpoint
  have hvalue : Decimal.value (m, k) = digitsValue ds * 10 ^ (point - ds.length) := by
    rw [Decimal.value, hm, mul_assoc, ← zpow_add₀ (by norm_num)]
    congr 2
    omega
  rw [hvalue, layout]
  simp only [← hds, ← hpoint]
  split_ifs with hexp hzero hlong
  · rcases ds.eq_nil_or_concat' with hnil | ⟨init, last, hconcat⟩
    · simp [hnil, Numeral.magnitude, digitsValue]
    · have hlen : ds.length = init.length + 1 := by simp [hconcat]
      rw [Numeral.magnitude, List.take_append_drop, List.length_drop]
      congr 2
      dsimp only
      omega
  · have hpoint' : ((-point).toNat : ℤ) = -point := Int.toNat_of_nonneg (by omega)
    rw [Numeral.magnitude, List.singleton_append, digitsValue_zero_cons, digitsValue_append,
      digitsValue_replicate_zero, List.length_append, List.length_replicate]
    push_cast
    rw [hpoint', zero_mul, zero_add]
    congr 2
    omega
  · obtain ⟨z, hz⟩ : ∃ z : ℕ, point = ds.length + z := ⟨point.toNat - ds.length, by omega⟩
    have hsub : point.toNat - ds.length = z := by omega
    rw [Numeral.magnitude, hsub, List.append_assoc, digitsValue_append, List.length_append,
      List.length_replicate, digitsValue_append, digitsValue_replicate_zero, hz]
    simp [digitsValue, pow_succ]
    field_simp
  · rw [Numeral.magnitude, List.take_append_drop, List.length_drop]
    congr 2
    dsimp only
    omega

theorem layout_wellFormed (negative : Bool) {d : Decimal} (hd : d.1 ≠ 0) :
    (layout negative d).WellFormed := by
  obtain ⟨m, k⟩ := d
  obtain ⟨lead, rest, hlead, hne⟩ := significant_lead hd
  have hlt := significant_lt m
  have hzero : ∀ n, ∀ d ∈ List.replicate n 0, d < 10 := by
    intro n d hd
    rw [List.eq_of_mem_replicate hd]
    norm_num
  rw [layout]
  dsimp only at hlead ⊢
  split_ifs with hexp hneg hlong
  · refine ⟨fun d hd => hlt d (List.mem_of_mem_take hd), fun d hd =>
      hlt d (List.mem_of_mem_drop hd),
      .inr ⟨lead, [], ?_, hne⟩⟩
    simp [hlead]
  · refine ⟨by simp, fun d hd => ?_, .inl rfl⟩
    exact (List.mem_append.mp hd).elim (hzero _ d) (hlt d)
  · refine ⟨fun d hd => (List.mem_append.mp hd).elim (hlt d) (hzero _ d), by simp,
      .inr ⟨lead, _, List.cons_append ▸ congrArg (· ++ _) hlead, hne⟩⟩
  · obtain ⟨p, hp⟩ : ∃ p, (((Nat.digits 10 m).length : ℤ) + k).toNat = p + 1 :=
      ⟨(((Nat.digits 10 m).length : ℤ) + k).toNat - 1, by omega⟩
    refine ⟨fun d hd => hlt d (List.mem_of_mem_take hd), fun d hd =>
      hlt d (List.mem_of_mem_drop hd),
      .inr ⟨lead, rest.take p, ?_, hne⟩⟩
    dsimp only
    rw [hp, hlead, List.take_succ_cons]

end Layout

section Shortest

variable {readsBack : ℚ → Bool} {q : ℚ}

theorem decimalWith_readsBack {p : ℕ} {d : Decimal} (h : decimalWith readsBack q p = some d) :
    readsBack d.value = true := by
  unfold decimalWith at h
  obtain ⟨m, hm, rfl⟩ := Option.map_eq_some_iff.mp h
  have hback := List.find?_some hm
  exact hback

/-- With enough digits the expansion of a double is exact. -/
theorem exact_expansion {n : ℕ} {e : ℤ} (he : -1074 ≤ e) (hpos : (0 : ℚ) < n * 2 ^ e)
    (hlt : (n * 2 ^ e : ℚ) < 2 ^ 1024) :
    ∃ m : ℕ, (n * 2 ^ e : ℚ) / 10 ^ (Int.log 10 (n * 2 ^ e : ℚ) + 1 - 2100) = m := by
  have hlog : Int.log 10 (n * 2 ^ e : ℚ) < 1024 := by
    rw [← Int.lt_zpow_iff_log_lt (by norm_num) hpos]
    calc (n * 2 ^ e : ℚ) < 2 ^ 1024 := hlt
      _ ≤ 10 ^ 1024 := pow_le_pow_left₀ (by norm_num) (by norm_num) _
      _ = ((10 : ℕ) : ℚ) ^ (1024 : ℤ) := by rw [← zpow_natCast]; norm_num
  obtain ⟨j, hj⟩ : ∃ j : ℕ, Int.log 10 (n * 2 ^ e : ℚ) + 1 - 2100 = -j :=
    ⟨(2100 - 1 - Int.log 10 (n * 2 ^ e : ℚ)).toNat, by omega⟩
  obtain ⟨i, hi⟩ : ∃ i : ℕ, e + j = i := ⟨(e + j).toNat, by omega⟩
  refine ⟨n * 2 ^ i * 5 ^ j, ?_⟩
  have hten : (10 : ℚ) ^ j = 2 ^ j * 5 ^ j := by rw [← mul_pow]; norm_num
  have htwo : (2 : ℚ) ^ e * 2 ^ j = 2 ^ i := by
    rw [← zpow_natCast, ← zpow_natCast, ← zpow_add₀ (by norm_num), hi]
  rw [hj, zpow_neg, zpow_natCast, div_inv_eq_mul, hten]
  push_cast
  rw [← htwo]
  ring

/-- The shortest decimal of a double reads back as that double. -/
theorem shortestDecimal_readsBack {n : ℕ} {e : ℤ} (he : -1074 ≤ e) (hpos : (0 : ℚ) < n * 2 ^ e)
    (hlt : (n * 2 ^ e : ℚ) < 2 ^ 1024) (hback : readsBack (n * 2 ^ e) = true) :
    readsBack (shortestDecimal readsBack (n * 2 ^ e)).value = true := by
  have hsome : ((List.range' 1 maxDigits).findSome?
      (decimalWith readsBack (n * 2 ^ e))).isSome = true := by
    rw [List.findSome?_isSome_iff]
    refine ⟨2100, by simp [maxDigits], ?_⟩
    obtain ⟨m, hm⟩ := exact_expansion he hpos hlt
    have hround : roundHalfEven ((n * 2 ^ e : ℚ) / 10 ^ (Int.log 10 (n * 2 ^ e : ℚ) + 1 - 2100)) =
        m := by
      rw [hm]
      exact_mod_cast roundHalfEven_intCast m
    have hexact : (m : ℚ) * 10 ^ (Int.log 10 (n * 2 ^ e : ℚ) + 1 - 2100) = n * 2 ^ e := by
      rw [← hm, div_mul_cancel₀ _ (by positivity)]
    unfold decimalWith
    simp only [Option.isSome_map, List.find?_isSome, Nat.cast_ofNat, hround]
    exact ⟨m, List.mem_cons_self, by simpa [hexact] using hback⟩
  obtain ⟨d, hd⟩ := Option.isSome_iff_exists.mp hsome
  obtain ⟨p, -, hp⟩ := List.exists_of_findSome?_eq_some hd
  rw [shortestDecimal, hd]
  exact decimalWith_readsBack hp

theorem layout_negative (negative : Bool) (d : Decimal) :
    (layout negative d).negative = negative := by
  rw [layout]
  split_ifs <;> rfl

theorem readDouble_zero (s : Bool) : (readDouble s 0).value = .fin s 0 := by
  simp [readDouble, Double.ofRat, SignedFloat.nearest, roundAt, roundHalfEven]

theorem shortest_readsAs {s : Bool} {q : ℚ≥0} (hq : (SignedFloat.fin s q).IsDouble) (hne : q ≠ 0) :
    (readDouble s (shortestDecimal (readsAs s q) q).value).value = .fin s q := by
  have hself := SignedFloat.nearest_of_isDouble hq
  obtain ⟨n, e, -, he, rfl, hlt⟩ := hq
  have hpos : (0 : ℚ) < n * 2 ^ e := by exact_mod_cast pos_iff_ne_zero.mpr hne
  have hcast : ((n * 2 ^ e : ℚ≥0) : ℚ) = n * 2 ^ e := by push_cast; rfl
  have hreads : readsAs s (n * 2 ^ e) (n * 2 ^ e) = true := by
    rw [readsAs, decide_eq_true_eq, ← hcast]
    exact hself
  have hback := shortestDecimal_readsBack he hpos (by exact_mod_cast hlt) hreads
  rw [hcast]
  exact of_decide_eq_true hback

theorem finiteNumeral_wellFormed {s : Bool} {q : ℚ≥0} (hq : (SignedFloat.fin s q).IsDouble) :
    (finiteNumeral s q).WellFormed := by
  unfold finiteNumeral
  by_cases hz : q = 0
  · rw [if_pos hz]
    exact ⟨by simp, by simp, .inl rfl⟩
  · rw [if_neg hz]
    refine layout_wellFormed s fun hzero => hz ?_
    have hshortest := shortest_readsAs hq hz
    rw [Decimal.value, hzero, Nat.cast_zero, zero_mul, readDouble_zero] at hshortest
    exact (SignedFloat.fin.inj hshortest).2.symm

theorem finiteNumeral_toDouble {x : Double} {s : Bool} {q : ℚ≥0} (hx : x.value = .fin s q) :
    (finiteNumeral s q).toDouble = x := by
  have hq : (SignedFloat.fin s q).IsDouble := hx ▸ x.isDouble
  apply Double.ext
  rw [hx, Numeral.toDouble, finiteNumeral]
  by_cases hz : q = 0
  · rw [if_pos hz, hz]
    have hmagnitude : Numeral.magnitude ⟨s, [0], [0], 0⟩ = 0 := by
      simp [Numeral.magnitude, digitsValue, Nat.ofDigits]
    rw [hmagnitude]
    exact readDouble_zero s
  · rw [if_neg hz, layout_negative, layout_magnitude]
    exact shortest_readsAs hq hz

end Shortest

example : (finiteNumeral false (1 / 4)).text = "0.25".toList := by decide +kernel

end MowerRover.Json
