import MowerRover.Json.Dumps

/-!
# Written values are read back

A value is read back from its text, in whatever may follow a value, exactly
when all its floats are finite; with a float that is not finite the text is
none of JSON.
-/

namespace MowerRover.Json

open Numeric

theorem skipWs_cons {c : Char} (h : isWs c = false) (cs : List Char) :
    skipWs (c :: cs) = c :: cs := by simp [skipWs, h]

/-- The characters a number starts with. -/
def NumberStart (c : Char) : Prop := c = '-' ∨ ∃ d < 10, c = digitChar d

theorem NumberStart.not_special {c : Char} (h : NumberStart c) :
    isWs c = false ∧ c ≠ '"' ∧ c ≠ '[' ∧ c ≠ ']' ∧ c ≠ '{' ∧ c ≠ 't' ∧ c ≠ 'f' ∧ c ≠ 'n' := by
  rcases h with rfl | ⟨d, hd, rfl⟩
  · decide
  · interval_cases d <;> decide

theorem Numeral.WellFormed.text_start {n : Numeral} (hn : n.WellFormed) :
    ∃ c cs, n.text = c :: cs ∧ NumberStart c := by
  obtain ⟨d, ds, hint⟩ : ∃ d ds, n.int = d :: ds := by
    rcases hn.int_lead with h | ⟨d, ds, h, -⟩
    · exact ⟨0, [], h⟩
    · exact ⟨d, ds, h⟩
  have hd : d < 10 := hn.int_digits d (by simp [hint])
  cases hneg : n.negative with
  | true => exact ⟨'-', _, by simp [text, hneg]; rfl, .inl rfl⟩
  | false => exact ⟨digitChar d, _, by simp [text, hneg, hint]; rfl, .inr ⟨d, hd, rfl⟩⟩

theorem parseValue_numeral {n : Numeral} (hn : n.WellFormed) {rest : List Char}
    (hrest : Numeral.Follow rest) (fuel : ℕ) :
    parseValue (fuel + 1) (n.text ++ rest) = some (.num n.toDouble, rest) := by
  obtain ⟨c, cs, htext, hstart⟩ := hn.text_start
  obtain ⟨hws, h1, h2, -, h3, h4, h5, h6⟩ := hstart.not_special
  have hparse := Numeral.parse_text hn hrest
  rw [htext, List.cons_append] at hparse ⊢
  rw [parseValue, skipWs_cons hws]
  simp [h1, h2, h3, h4, h5, h6, hparse]

theorem intNumeral_wellFormed (n : ℤ) : (intNumeral n).WellFormed where
  int_digits := decimalDigits_lt _
  frac_digits := by simp [intNumeral]
  int_lead := decimalDigits_lead _

theorem intNumeral_toDouble (n : ℤ) : (intNumeral n).toDouble = Double.ofInt n := by
  have hmagnitude : (intNumeral n).magnitude = n.natAbs := by
    simp [intNumeral, Numeral.magnitude, digitsValue_decimalDigits]
  rw [Numeral.toDouble, hmagnitude, readDouble, Double.ofInt]
  by_cases hn : n < 0
  · have habs : ((n.natAbs : ℕ) : ℚ) = -n := by
      rw [Nat.cast_natAbs, abs_of_neg hn]
      push_cast
      rfl
    have hne : (n : ℚ) ≠ 0 := by exact_mod_cast hn.ne
    apply Double.ext
    simp [intNumeral, hn, habs, Double.ofRat, SignedFloat.nearest, hne]
  · have habs : ((n.natAbs : ℕ) : ℚ) = n := by
      rw [Nat.cast_natAbs, abs_of_nonneg (not_lt.mp hn)]
    simp [intNumeral, hn, habs]

/-- The texts of infinities and of not-a-number start no JSON value. -/
theorem parseValue_float {x : Double} {rest : List Char} (hrest : Numeral.Follow rest)
    (fuel : ℕ) : parseValue (fuel + 1) (floatText x ++ rest) =
      if x.isFinite then some (.num x, rest) else none := by
  unfold floatText Double.isFinite
  cases hx : x.value with
  | fin s q =>
    have hwf := finiteNumeral_wellFormed (s := s) (q := q) (hx ▸ x.isDouble)
    simp [parseValue_numeral hwf hrest, finiteNumeral_toDouble hx]
  | inf s =>
    cases s with
    | false =>
      have hparse : Numeral.parse ('I' :: ("nfinity".toList ++ rest)) = none :=
        Numeral.parse_eq_none (by decide) (by decide)
      rw [parseValue]
      simpa [skipWs, isWs] using hparse
    | true =>
      have hparse : Numeral.parse ('-' :: 'I' :: ("nfinity".toList ++ rest)) = none :=
        Numeral.parse_minus_eq_none (by decide)
      rw [parseValue]
      simpa [skipWs, isWs] using hparse
  | nan =>
    have hparse : Numeral.parse ('N' :: ("aN".toList ++ rest)) = none :=
      Numeral.parse_eq_none (by decide) (by decide)
    rw [parseValue]
    simpa [skipWs, isWs] using hparse

theorem dumps_start (v : Value) : ∃ c cs, dumps v = c :: cs ∧ isWs c = false ∧ c ≠ ']' := by
  cases v with
  | null => exact ⟨'n', _, rfl, by decide, by decide⟩
  | bool b => cases b <;> exact ⟨_, _, rfl, by decide, by decide⟩
  | int n =>
    obtain ⟨c, cs, htext, hstart⟩ := (intNumeral_wellFormed n).text_start
    obtain ⟨hws, -, -, hbracket, -⟩ := hstart.not_special
    exact ⟨c, cs, by rw [dumps, htext], hws, hbracket⟩
  | float x =>
    rw [dumps, floatText]
    cases hx : x.value with
    | fin s q =>
      obtain ⟨c, cs, htext, hstart⟩ :=
        (finiteNumeral_wellFormed (s := s) (q := q) (hx ▸ x.isDouble)).text_start
      obtain ⟨hws, -, -, hbracket, -⟩ := hstart.not_special
      exact ⟨c, cs, htext, hws, hbracket⟩
    | inf s => cases s <;> exact ⟨_, _, rfl, by decide, by decide⟩
    | nan => exact ⟨'N', _, rfl, by decide, by decide⟩
  | str s => exact ⟨'"', _, by rw [dumps, dumpsString], by decide, by decide⟩
  | list vs => cases vs <;> exact ⟨'[', _, by rw [dumps], by decide, by decide⟩
  | dict ms => cases ms <;> exact ⟨'{', _, by rw [dumps], by decide, by decide⟩

theorem follow_cons {c : Char} (h : c = ',' ∨ c = ']' ∨ c = '}') (cs : List Char) :
    Numeral.Follow (c :: cs) := by
  intro d hd
  obtain rfl : c = d := by simpa using hd
  rcases h with rfl | rfl | rfl <;> decide

theorem follow_nil : Numeral.Follow [] := by
  intro c hc
  simp at hc

theorem follow_dumpsItems (vs : List Value) (rest : List Char) :
    Numeral.Follow (dumpsItems vs ++ rest) := by
  cases vs with
  | nil => exact follow_cons (by simp) _
  | cons v vs => exact follow_cons (by simp) _

theorem follow_dumpsMembers (ms : List (String × Value)) (rest : List Char) :
    Numeral.Follow (dumpsMembers ms ++ rest) := by
  cases ms with
  | nil => exact follow_cons (by simp) _
  | cons m ms => exact follow_cons (by simp) _

theorem parseString_dumpsString_append (cs rest : List Char) :
    dumpsString cs ++ rest = '"' :: (escape cs ++ '"' :: rest) := by simp [dumpsString]

theorem dumpsMember_start (m : String × Value) : ∃ cs, dumpsMember m = '"' :: cs :=
  ⟨_, by rw [dumpsMember, dumpsString, List.cons_append]⟩

mutual

theorem parseValue_dumps (v : Value) (fuel : ℕ) (rest : List Char)
    (hfuel : (dumps v).length ≤ fuel) (hrest : Numeral.Follow rest) :
    parseValue fuel (dumps v ++ rest) = if v.finite then some (v.read, rest) else none := by
  obtain ⟨c, cs, hstart, -⟩ := dumps_start v
  obtain ⟨fuel, rfl⟩ : ∃ n, fuel = n + 1 :=
    ⟨fuel - 1, by rw [hstart, List.length_cons] at hfuel; omega⟩
  match v with
  | .null => rfl
  | .bool true => rfl
  | .bool false => rfl
  | .int n =>
    rw [dumps, parseValue_numeral (intNumeral_wellFormed n) hrest, intNumeral_toDouble]
    rfl
  | .float x =>
    rw [dumps, parseValue_float hrest]
    rfl
  | .str s =>
    rw [dumps, parseString_dumpsString_append, parseValue, skipWs_cons (by decide)]
    simp [parseString_dumpsString, Value.finite, Value.read]
  | .list [] => rfl
  | .dict [] => rfl
  | .list (v :: vs) =>
    obtain ⟨d, ds, hd, hws, hbracket⟩ := dumps_start v
    have hlen : (dumps v).length ≤ fuel ∧ (dumpsItems vs).length ≤ fuel := by
      rw [dumps] at hfuel
      simp only [List.length_cons, List.length_append] at hfuel
      omega
    have hv := parseValue_dumps v fuel (dumpsItems vs ++ rest) hlen.1 (follow_dumpsItems vs rest)
    have hvs := parseItems_dumps vs fuel rest hlen.2
    have hskip : skipWs (dumps v ++ (dumpsItems vs ++ rest)) = dumps v ++
      (dumpsItems vs ++ rest) := by
      rw [hd, List.cons_append, skipWs_cons hws]
    rw [dumps, List.cons_append, List.append_assoc, parseValue, skipWs_cons (by decide)]
    simp only [Char.reduceEq, if_false, if_true, hskip]
    split
    · rename_i heq
      rw [hd, List.cons_append] at heq
      exact absurd (List.cons.inj heq).1 hbracket
    · rw [hv, Value.finite, finiteItems, Value.read, readItems]
      cases v.finite
      · rfl
      · cases hfin : finiteItems vs <;> simp [hvs, hfin]
  | .dict (m :: ms) =>
    obtain ⟨ds, hd⟩ := dumpsMember_start m
    have hlen : (dumpsMember m).length ≤ fuel ∧ (dumpsMembers ms).length ≤ fuel := by
      rw [dumps] at hfuel
      simp only [List.length_cons, List.length_append] at hfuel
      omega
    have hm := parseMember_dumps m fuel (dumpsMembers ms ++ rest) hlen.1
      (follow_dumpsMembers ms rest)
    have hms := parseMembers_dumps ms fuel rest hlen.2
    have hskip : skipWs (dumpsMember m ++ (dumpsMembers ms ++ rest)) =
        dumpsMember m ++ (dumpsMembers ms ++ rest) := by
      rw [hd, List.cons_append, skipWs_cons (by decide)]
    rw [dumps, List.cons_append, List.append_assoc, parseValue, skipWs_cons (by decide)]
    simp only [Char.reduceEq, if_false, if_true, hskip]
    split
    · rename_i heq
      rw [hd, List.cons_append] at heq
      exact absurd (List.cons.inj heq).1 (by decide)
    · rw [hm, Value.finite, finiteMembers, Value.read, readMembers]
      cases finiteMember m
      · rfl
      · cases hfin : finiteMembers ms <;> simp [hms, hfin]

theorem parseItems_dumps (vs : List Value) (fuel : ℕ) (rest : List Char)
    (hfuel : (dumpsItems vs).length ≤ fuel) :
    parseItems fuel (dumpsItems vs ++ rest) =
      if finiteItems vs then some (readItems vs, rest) else none := by
  match vs, fuel with
  | [], 0 => simp [dumpsItems] at hfuel
  | [], fuel + 1 => rfl
  | v :: vs, 0 => simp [dumpsItems] at hfuel
  | v :: vs, fuel + 1 =>
    have hlen : (dumps v).length ≤ fuel ∧ (dumpsItems vs).length ≤ fuel := by
      rw [dumpsItems] at hfuel
      simp only [List.length_cons, List.length_append] at hfuel
      omega
    have hv := parseValue_dumps v fuel (dumpsItems vs ++ rest) hlen.1 (follow_dumpsItems vs rest)
    have hvs := parseItems_dumps vs fuel rest hlen.2
    rw [dumpsItems, List.cons_append, List.append_assoc, parseItems, skipWs_cons (by decide)]
    rw [finiteItems, readItems]
    cases hv' : v.finite
    · simp [hv, hv']
    · cases hfin : finiteItems vs <;> simp [hv, hv', hvs, hfin]

theorem parseMember_dumps (m : String × Value) (fuel : ℕ) (rest : List Char)
    (hfuel : (dumpsMember m).length ≤ fuel) (hrest : Numeral.Follow rest) :
    parseMember fuel (dumpsMember m ++ rest) =
      if finiteMember m then some (readMember m, rest) else none := by
  match m, fuel with
  | (k, v), 0 =>
    obtain ⟨cs, hcs⟩ := dumpsMember_start (k, v)
    simp [hcs] at hfuel
  | (k, v), fuel + 1 =>
    have hlen : (dumps v).length ≤ fuel := by
      rw [dumpsMember] at hfuel
      simp only [List.length_cons, List.length_append] at hfuel
      omega
    have hv := parseValue_dumps v fuel rest hlen hrest
    rw [dumpsMember, List.append_assoc, parseString_dumpsString_append, parseMember,
      skipWs_cons (by decide)]
    simp only [parseString_dumpsString, List.cons_append, Option.bind_eq_bind, Option.bind_some,
      skipWs_cons (show isWs ':' = false by decide)]
    rw [finiteMember, readMember]
    cases hv' : v.finite <;> simp [hv, hv']

theorem parseMembers_dumps (ms : List (String × Value)) (fuel : ℕ) (rest : List Char)
    (hfuel : (dumpsMembers ms).length ≤ fuel) :
    parseMembers fuel (dumpsMembers ms ++ rest) =
      if finiteMembers ms then some (readMembers ms, rest) else none := by
  match ms, fuel with
  | [], 0 => simp [dumpsMembers] at hfuel
  | [], fuel + 1 => rfl
  | m :: ms, 0 => simp [dumpsMembers] at hfuel
  | m :: ms, fuel + 1 =>
    have hlen : (dumpsMember m).length ≤ fuel ∧ (dumpsMembers ms).length ≤ fuel := by
      rw [dumpsMembers] at hfuel
      simp only [List.length_cons, List.length_append] at hfuel
      omega
    have hm := parseMember_dumps m fuel (dumpsMembers ms ++ rest) hlen.1
      (follow_dumpsMembers ms rest)
    have hms := parseMembers_dumps ms fuel rest hlen.2
    rw [dumpsMembers, List.cons_append, List.append_assoc, parseMembers, skipWs_cons (by decide)]
    rw [finiteMembers, readMembers]
    cases hm' : finiteMember m
    · simp [hm, hm']
    · cases hfin : finiteMembers ms <;> simp [hm, hm', hms, hfin]

end

theorem parse_dumps (v : Value) : parse (dumps v) = if v.finite then some v.read else none := by
  have h := parseValue_dumps v ((dumps v).length + 1) [] (Nat.le_succ _) follow_nil
  rw [List.append_nil] at h
  rw [parse, h]
  cases v.finite <;> rfl

theorem parseBytes_dumps (v : Value) :
    parseBytes (encodeUtf8 (dumps v)) = if v.finite then some v.read else none := by
  rw [parseBytes, decodeUtf8_encodeUtf8, Option.bind_some, parse_dumps]

end MowerRover.Json
