import Mathlib.Tactic
import Mathlib.Data.Nat.Digits.Lemmas

/-!
# Decimal numerals

The numbers of RFC 8259: a sign, an integer part without superfluous zeros, a
fraction and an exponent. Reading a numeral back from its text, in whatever
stands after it, gives the numeral.
-/

namespace MowerRover.Json

def digitChar (d : ℕ) : Char := Char.ofNat ('0'.toNat + d)

def digitOf (c : Char) : Option ℕ :=
  if '0' ≤ c ∧ c ≤ '9' then some (c.toNat - '0'.toNat) else none

/-- The decimal digits of a number, the most significant first. -/
def decimalDigits (n : ℕ) : List ℕ := if n = 0 then [0] else (Nat.digits 10 n).reverse

/-- The number that digits stand for, the most significant first. -/
def digitsValue (ds : List ℕ) : ℕ := Nat.ofDigits 10 ds.reverse

/-- The digits at the front of a text, and what follows them. -/
def spanDigits : List Char → List ℕ × List Char
  | [] => ([], [])
  | c :: cs =>
    match digitOf c with
    | some d => (d :: (spanDigits cs).1, (spanDigits cs).2)
    | none => ([], c :: cs)

/-- Digits, the most significant first; the exponent counts places of the last one. -/
structure Numeral where
  negative : Bool
  int : List ℕ
  frac : List ℕ
  exp : ℤ
  deriving DecidableEq, Repr

namespace Numeral

/-- The magnitude of the number. -/
def magnitude (n : Numeral) : ℚ := digitsValue (n.int ++ n.frac) * 10 ^ (n.exp - n.frac.length)

/-- The exponent with its sign and at least two digits. -/
def expText (e : ℤ) : List Char :=
  let ds := decimalDigits e.natAbs
  'e' :: (if e < 0 then '-' else '+') :: ((if ds.length < 2 then 0 :: ds else ds).map digitChar)

def text (n : Numeral) : List Char :=
  (if n.negative then ['-'] else []) ++ n.int.map digitChar ++
    (if n.frac = [] then [] else '.' :: n.frac.map digitChar) ++
    (if n.exp = 0 then [] else expText n.exp)

/-- One digit, or several that do not start with a zero. -/
structure WellFormed (n : Numeral) : Prop where
  int_digits : ∀ d ∈ n.int, d < 10
  frac_digits : ∀ d ∈ n.frac, d < 10
  int_lead : n.int = [0] ∨ ∃ d ds, n.int = d :: ds ∧ d ≠ 0

def parseInt (cs : List Char) : Option (List ℕ × List Char) :=
  match cs with
  | '0' :: rest => some ([0], rest)
  | cs => if (spanDigits cs).1 = [] then none else some (spanDigits cs)

def parseFrac (cs : List Char) : Option (List ℕ × List Char) :=
  match cs with
  | '.' :: rest => if (spanDigits rest).1 = [] then none else some (spanDigits rest)
  | cs => some ([], cs)

def parseSign : List Char → Bool × List Char
  | '-' :: rest => (true, rest)
  | '+' :: rest => (false, rest)
  | cs => (false, cs)

def isExpMark (c : Char) : Bool := c == 'e' || c == 'E'

def parseExp (cs : List Char) : Option (ℤ × List Char) :=
  match cs with
  | [] => some (0, [])
  | c :: rest =>
    if isExpMark c then
      let (negative, rest) := parseSign rest
      if (spanDigits rest).1 = [] then none
      else
        let e : ℤ := digitsValue (spanDigits rest).1
        some (if negative then -e else e, (spanDigits rest).2)
    else some (0, c :: rest)

def parseMinus : List Char → Bool × List Char
  | '-' :: rest => (true, rest)
  | cs => (false, cs)

def parse (cs : List Char) : Option (Numeral × List Char) := do
  let (int, rest) ← parseInt (parseMinus cs).2
  let (frac, rest) ← parseFrac rest
  let (exp, rest) ← parseExp rest
  return (⟨(parseMinus cs).1, int, frac, exp⟩, rest)

end Numeral

theorem digitOf_digitChar {d : ℕ} (hd : d < 10) : digitOf (digitChar d) = some d := by
  interval_cases d <;> decide

theorem decimalDigits_lt (n : ℕ) : ∀ d ∈ decimalDigits n, d < 10 := by
  intro d hd
  unfold decimalDigits at hd
  split_ifs at hd with hn
  · simp_all
  · exact Nat.digits_lt_base (by norm_num) (List.mem_reverse.mp hd)

theorem digitsValue_decimalDigits (n : ℕ) : digitsValue (decimalDigits n) = n := by
  unfold digitsValue decimalDigits
  split_ifs with hn
  · simp [hn]
  · rw [List.reverse_reverse, Nat.ofDigits_digits]

theorem decimalDigits_lead (n : ℕ) :
    decimalDigits n = [0] ∨ ∃ d ds, decimalDigits n = d :: ds ∧ d ≠ 0 := by
  unfold decimalDigits
  split_ifs with hn
  · exact .inl rfl
  · right
    have hne : Nat.digits 10 n ≠ [] := Nat.digits_ne_nil_iff_ne_zero.mpr hn
    have hlast := Nat.getLast_digit_ne_zero 10 hn
    refine ⟨(Nat.digits 10 n).getLast hne, (Nat.digits 10 n).dropLast.reverse, ?_, hlast⟩
    conv_lhs => rw [← List.dropLast_append_getLast hne]
    simp

theorem decimalDigits_ne_nil (n : ℕ) : decimalDigits n ≠ [] := by
  rcases decimalDigits_lead n with h | ⟨d, ds, h, -⟩ <;> simp [h]

theorem digitsValue_zero_cons (ds : List ℕ) : digitsValue (0 :: ds) = digitsValue ds := by
  simp [digitsValue, Nat.ofDigits_append]

/-- The text does not start with a digit. -/
def NoDigit (cs : List Char) : Prop := ∀ c, cs.head? = some c → digitOf c = none

theorem spanDigits_of_noDigit {cs : List Char} (h : NoDigit cs) : spanDigits cs = ([], cs) := by
  cases cs with
  | nil => rfl
  | cons c cs => simp [spanDigits, h c rfl]

theorem spanDigits_append {ds : List ℕ} (hds : ∀ d ∈ ds, d < 10) {rest : List Char}
    (hrest : NoDigit rest) : spanDigits (ds.map digitChar ++ rest) = (ds, rest) := by
  induction ds with
  | nil => exact spanDigits_of_noDigit hrest
  | cons d ds ih =>
    have hd := digitOf_digitChar (hds d List.mem_cons_self)
    have hih := ih fun d hd => hds d (List.mem_cons_of_mem _ hd)
    simp [spanDigits, hd, hih]

namespace Numeral

/-- The text cannot continue a numeral. -/
def Follow (cs : List Char) : Prop :=
  ∀ c, cs.head? = some c → digitOf c = none ∧ c ≠ '.' ∧ isExpMark c = false

theorem Follow.noDigit {cs : List Char} (h : Follow cs) : NoDigit cs := fun c hc => (h c hc).1

theorem parseInt_append {ds : List ℕ} (hds : ∀ d ∈ ds, d < 10)
    (hlead : ds = [0] ∨ ∃ d rest, ds = d :: rest ∧ d ≠ 0) {rest : List Char}
    (hrest : NoDigit rest) : parseInt (ds.map digitChar ++ rest) = some (ds, rest) := by
  rcases hlead with rfl | ⟨d, ds, rfl, hd⟩
  · rfl
  · have hspan := spanDigits_append hds hrest
    have hlt := hds d List.mem_cons_self
    have hne : digitChar d ≠ '0' := by interval_cases d <;> simp_all [digitChar]
    rw [List.map_cons, List.cons_append] at hspan ⊢
    unfold parseInt
    split
    · rename_i heq
      exact absurd (List.cons.inj heq).1 hne
    · simp [hspan]

theorem parseFrac_append {ds : List ℕ} (hds : ∀ d ∈ ds, d < 10) {rest : List Char}
    (hrest : NoDigit rest) (hdot : rest.head? ≠ some '.') :
    parseFrac ((if ds = [] then [] else '.' :: ds.map digitChar) ++ rest) = some (ds, rest) := by
  by_cases hnil : ds = []
  · subst hnil
    cases rest with
    | nil => rfl
    | cons c rest =>
      have hc : c ≠ '.' := fun h => hdot (by simp [h])
      simp only [if_true, List.nil_append, parseFrac]
      split
      · rename_i heq
        exact absurd (List.cons.inj heq).1 hc
      · rfl
  · simp [parseFrac, spanDigits_append hds hrest, hnil]

theorem parseSign_expText (e : ℤ) (rest : List Char) :
    parseSign ((if e < 0 then '-' else '+') :: rest) = (decide (e < 0), rest) := by
  by_cases he : e < 0 <;> simp [parseSign, he]

theorem parseExp_append (e : ℤ) {rest : List Char} (hrest : Follow rest) :
    parseExp ((if e = 0 then [] else expText e) ++ rest) = some (e, rest) := by
  by_cases he : e = 0
  · subst he
    cases rest with
    | nil => rfl
    | cons c rest => simp [parseExp, (hrest c rfl).2.2]
  · set ds := if (decimalDigits e.natAbs).length < 2 then 0 :: decimalDigits e.natAbs
      else decimalDigits e.natAbs with hds
    have hlt : ∀ d ∈ ds, d < 10 := by
      intro d hd
      have hall := decimalDigits_lt e.natAbs d
      rw [hds] at hd
      split_ifs at hd
      · rcases List.mem_cons.mp hd with rfl | hd
        · norm_num
        · exact hall hd
      · exact hall hd
    have hvalue : digitsValue ds = e.natAbs := by
      rw [hds]
      split_ifs
      · rw [digitsValue_zero_cons, digitsValue_decimalDigits]
      · exact digitsValue_decimalDigits _
    have hne : ds ≠ [] := by
      rw [hds]
      split_ifs
      · simp
      · exact decimalDigits_ne_nil _
    have htext : expText e ++ rest =
        'e' :: (if e < 0 then '-' else '+') :: (ds.map digitChar ++ rest) := rfl
    rw [if_neg he, htext, parseExp]
    simp only [show isExpMark 'e' = true from rfl, if_true, parseSign_expText,
      spanDigits_append hlt hrest.noDigit, if_neg hne, hvalue, Option.some.injEq, Prod.mk.injEq,
      and_true, decide_eq_true_eq]
    split_ifs <;> omega

theorem noDigit_expText (e : ℤ) {rest : List Char} (hrest : Follow rest) :
    NoDigit ((if e = 0 then [] else expText e) ++ rest) ∧
      ((if e = 0 then [] else expText e) ++ rest).head? ≠ some '.' := by
  by_cases he : e = 0
  · subst he
    refine ⟨hrest.noDigit, fun h => ?_⟩
    exact (hrest '.' h).2.1 rfl
  · simp only [if_neg he, expText, List.cons_append]
    refine ⟨fun c hc => ?_, by simp⟩
    obtain rfl : 'e' = c := by simpa using hc
    rfl

theorem noDigit_frac {n : Numeral} {rest : List Char} (hrest : NoDigit rest) :
    NoDigit ((if n.frac = [] then [] else '.' :: n.frac.map digitChar) ++ rest) := by
  split_ifs
  · exact hrest
  · intro c hc
    obtain rfl : '.' = c := by simpa using hc
    rfl

theorem digitChar_ne_minus {d : ℕ} (hd : d < 10) : digitChar d ≠ '-' := by
  interval_cases d <;> decide

theorem parseMinus_append {n : Numeral} (hn : n.WellFormed) (rest : List Char) :
    parseMinus ((if n.negative then ['-'] else []) ++ (n.int.map digitChar ++ rest)) =
      (n.negative, n.int.map digitChar ++ rest) := by
  cases hneg : n.negative with
  | true => simp [parseMinus]
  | false =>
    obtain ⟨d, ds, hint⟩ : ∃ d ds, n.int = d :: ds := by
      rcases hn.int_lead with h | ⟨d, ds, h, -⟩
      · exact ⟨0, [], h⟩
      · exact ⟨d, ds, h⟩
    have hd : d < 10 := hn.int_digits d (by simp [hint])
    simp only [Bool.false_eq_true, if_false, List.nil_append, hint, List.map_cons, List.cons_append]
    unfold parseMinus
    split
    · rename_i heq
      exact absurd (List.cons.inj heq).1 (digitChar_ne_minus hd)
    · rfl

theorem parse_text {n : Numeral} (hn : n.WellFormed) {rest : List Char} (hrest : Follow rest) :
    parse (n.text ++ rest) = some (n, rest) := by
  obtain ⟨hexp, hdot⟩ := noDigit_expText n.exp hrest
  have hint := parseInt_append hn.int_digits hn.int_lead (noDigit_frac (n := n) hexp)
  have hfrac := parseFrac_append hn.frac_digits hexp hdot
  have hparse := parseExp_append n.exp hrest
  rw [parse, text]
  simp only [List.append_assoc, parseMinus_append hn]
  rw [hint]
  simp only [Option.bind_eq_bind, Option.bind_some]
  rw [hfrac]
  simp only [Option.bind_some]
  rw [hparse]
  rfl

theorem parseInt_eq_none {c : Char} {cs : List Char} (h : digitOf c = none) :
    parseInt (c :: cs) = none := by
  unfold parseInt
  split
  · rename_i heq
    obtain rfl := (List.cons.inj heq).1
    simp [digitOf] at h
  · simp [spanDigits, h]

theorem parse_eq_none {c : Char} {cs : List Char} (hdigit : digitOf c = none) (hminus : c ≠ '-') :
    parse (c :: cs) = none := by
  have hsign : parseMinus (c :: cs) = (false, c :: cs) := by
    unfold parseMinus
    split
    · rename_i heq
      exact absurd (List.cons.inj heq).1 hminus
    · rfl
  simp [parse, hsign, parseInt_eq_none hdigit]

theorem parse_minus_eq_none {c : Char} {cs : List Char} (hdigit : digitOf c = none) :
    parse ('-' :: c :: cs) = none := by
  simp [parse, parseMinus, parseInt_eq_none hdigit]

end Numeral
end MowerRover.Json
