import MowerRover.Json.RoundTrip

/-!
# The size of a text

The text of a value is ASCII, so it has as many bytes as characters, and their
number is the sum of the widths of the parts of the value.
-/

namespace MowerRover.Json

open Numeric

/-- Every character is one byte of UTF-8. -/
def Ascii (cs : List Char) : Prop := ∀ c ∈ cs, c.toNat < 128

@[simp] theorem ascii_nil : Ascii [] := by simp [Ascii]

@[simp] theorem ascii_cons {c : Char} {cs : List Char} :
    Ascii (c :: cs) ↔ c.toNat < 128 ∧ Ascii cs := by simp [Ascii]

@[simp] theorem ascii_append {cs ds : List Char} : Ascii (cs ++ ds) ↔ Ascii cs ∧ Ascii ds := by
  simp only [Ascii, List.mem_append, or_imp, forall_and]

theorem encodeUtf8_length_of_ascii {cs : List Char} (h : Ascii cs) :
    (encodeUtf8 cs).length = cs.length := by
  induction cs with
  | nil => rfl
  | cons c cs ih =>
    rw [ascii_cons] at h
    have hchar : (String.utf8EncodeChar c).length = 1 := by
      rw [String.length_utf8EncodeChar, Char.utf8Size_eq_one_iff]
      exact UInt32.le_iff_toNat_le.mpr (Nat.le_of_lt_succ h.1)
    rw [encodeUtf8, List.flatMap_cons, List.length_append, hchar, ← encodeUtf8, ih h.2,
      List.length_cons]
    omega

theorem ascii_digits {ds : List ℕ} (h : ∀ d ∈ ds, d < 10) : Ascii (ds.map digitChar) := by
  intro c hc
  obtain ⟨d, hd, rfl⟩ := List.mem_map.mp hc
  have hlt := h d hd
  interval_cases d <;> decide

theorem Numeral.WellFormed.ascii_text {n : Numeral} (hn : n.WellFormed) : Ascii n.text := by
  have hint := ascii_digits hn.int_digits
  have hfrac := ascii_digits hn.frac_digits
  have hexp (e : ℤ) : Ascii (expText e) := by
    have hdigits : ∀ d ∈ (if (decimalDigits e.natAbs).length < 2 then 0 :: decimalDigits e.natAbs
        else decimalDigits e.natAbs), d < 10 := by
      split_ifs
      · exact List.forall_mem_cons.mpr ⟨by decide, decimalDigits_lt _⟩
      · exact decimalDigits_lt _
    rw [expText, ascii_cons, ascii_cons]
    exact ⟨by decide, by split_ifs <;> decide, ascii_digits hdigits⟩
  unfold Numeral.text
  split_ifs <;> simp [hint, hfrac, hexp]

theorem ascii_floatText (x : Double) : Ascii (floatText x) := by
  unfold floatText
  cases hx : x.value with
  | fin s q => exact (finiteNumeral_wellFormed (hx ▸ x.isDouble)).ascii_text
  | inf s => cases s <;> simp [Ascii]
  | nan => simp [Ascii]

theorem shortEscape_lt {c e : Char} (h : shortEscape c = some e) : e.toNat < 128 := by
  unfold shortEscape at h
  split_ifs at h <;> obtain rfl := Option.some.inj h <;> decide

theorem isPrintable_lt {c : Char} (h : isPrintable c = true) : c.toNat < 128 := by
  simp only [isPrintable, Bool.and_eq_true, decide_eq_true_eq] at h
  have hle : c.toNat ≤ '~'.toNat := UInt32.le_iff_toNat_le.mp h.2
  exact Nat.lt_of_le_of_lt hle (by decide)

theorem hexChar_lt {d : ℕ} (hd : d < 16) : (hexChar d).toNat < 128 := by
  interval_cases d <;> decide

theorem ascii_hex4 (u : ℕ) : Ascii (hex4 u) := by
  simp [hex4, hexChar_lt (Nat.mod_lt _ _)]

theorem ascii_escapeChar (c : Char) : Ascii (escapeChar c) := by
  unfold escapeChar
  split
  · rename_i e he
    simp [shortEscape_lt he]
  · split_ifs with hprint
    · simp [isPrintable_lt hprint]
    · intro d hd
      obtain ⟨u, -, hd⟩ := List.mem_flatMap.mp hd
      have hunit : Ascii ('\\' :: 'u' :: hex4 u) := by simp [ascii_hex4]
      exact hunit d hd

theorem ascii_dumpsString (cs : List Char) : Ascii (dumpsString cs) := by
  have hescape : Ascii (escape cs) := by
    intro d hd
    obtain ⟨c, -, hd⟩ := List.mem_flatMap.mp hd
    exact ascii_escapeChar c d hd
  simp [dumpsString, hescape]

/-- The characters a character of a string takes. -/
def charWidth (c : Char) : ℕ :=
  if (shortEscape c).isSome then 2
  else if isPrintable c then 1
  else if c.toNat < 0x10000 then 6
  else 12

def stringWidth (cs : List Char) : ℕ := (cs.map charWidth).sum + 2

theorem escapeChar_length (c : Char) : (escapeChar c).length = charWidth c := by
  unfold escapeChar charWidth
  cases shortEscape c with
  | some e => rfl
  | none =>
    by_cases hprint : isPrintable c
    · simp [hprint]
    · by_cases hsmall : c.toNat < 0x10000 <;> simp [hprint, hsmall, utf16Char, hex4]

theorem dumpsString_length (cs : List Char) : (dumpsString cs).length = stringWidth cs := by
  have hescape : (escape cs).length = (cs.map charWidth).sum := by
    rw [escape, List.length_flatMap]
    congr 2
    exact funext escapeChar_length
  simp [dumpsString, stringWidth, hescape]

mutual

/-- The characters of the text of a value: those of its parts, the brackets and the separators. -/
def Value.width : Value → ℕ
  | .null => 4
  | .bool b => if b then 4 else 5
  | .int n => (intNumeral n).text.length
  | .float x => (floatText x).length
  | .str s => stringWidth s.toList
  | .list [] => 2
  | .list (v :: vs) => 1 + v.width + widthItems vs
  | .dict [] => 2
  | .dict (m :: ms) => 1 + widthMember m + widthMembers ms

def widthItems : List Value → ℕ
  | [] => 1
  | v :: vs => 1 + v.width + widthItems vs

def widthMember : String × Value → ℕ
  | (k, v) => stringWidth k.toList + 1 + v.width

def widthMembers : List (String × Value) → ℕ
  | [] => 1
  | m :: ms => 1 + widthMember m + widthMembers ms

end

mutual

theorem dumps_text (v : Value) : Ascii (dumps v) ∧ (dumps v).length = v.width := by
  match v with
  | .null => exact ⟨by simp [dumps], rfl⟩
  | .bool true => exact ⟨by simp [dumps], rfl⟩
  | .bool false => exact ⟨by simp [dumps], rfl⟩
  | .int n => exact ⟨by rw [dumps]; exact (intNumeral_wellFormed n).ascii_text, by
      rw [dumps, Value.width]⟩
  | .float x => exact ⟨by rw [dumps]; exact ascii_floatText x, by rw [dumps, Value.width]⟩
  | .str s =>
    rw [dumps, Value.width]
    exact ⟨ascii_dumpsString _, dumpsString_length _⟩
  | .list [] => exact ⟨by simp [dumps], rfl⟩
  | .dict [] => exact ⟨by simp [dumps], rfl⟩
  | .list (v :: vs) =>
    obtain ⟨hv, hvlen⟩ := dumps_text v
    obtain ⟨hvs, hvslen⟩ := dumpsItems_text vs
    rw [dumps, Value.width]
    refine ⟨by simp [hv, hvs], ?_⟩
    simp only [List.length_cons, List.length_append, hvlen, hvslen]
    omega
  | .dict (m :: ms) =>
    obtain ⟨hm, hmlen⟩ := dumpsMember_text m
    obtain ⟨hms, hmslen⟩ := dumpsMembers_text ms
    rw [dumps, Value.width]
    refine ⟨by simp [hm, hms], ?_⟩
    simp only [List.length_cons, List.length_append, hmlen, hmslen]
    omega

theorem dumpsItems_text (vs : List Value) :
    Ascii (dumpsItems vs) ∧ (dumpsItems vs).length = widthItems vs := by
  match vs with
  | [] => exact ⟨by simp [dumpsItems], rfl⟩
  | v :: vs =>
    obtain ⟨hv, hvlen⟩ := dumps_text v
    obtain ⟨hvs, hvslen⟩ := dumpsItems_text vs
    rw [dumpsItems, widthItems]
    refine ⟨by simp [hv, hvs], ?_⟩
    simp only [List.length_cons, List.length_append, hvlen, hvslen]
    omega

theorem dumpsMember_text (m : String × Value) :
    Ascii (dumpsMember m) ∧ (dumpsMember m).length = widthMember m := by
  match m with
  | (k, v) =>
    obtain ⟨hv, hvlen⟩ := dumps_text v
    rw [dumpsMember, widthMember]
    refine ⟨by simp [hv, ascii_dumpsString], ?_⟩
    simp only [List.length_cons, List.length_append, hvlen, dumpsString_length]
    omega

theorem dumpsMembers_text (ms : List (String × Value)) :
    Ascii (dumpsMembers ms) ∧ (dumpsMembers ms).length = widthMembers ms := by
  match ms with
  | [] => exact ⟨by simp [dumpsMembers], rfl⟩
  | m :: ms =>
    obtain ⟨hm, hmlen⟩ := dumpsMember_text m
    obtain ⟨hms, hmslen⟩ := dumpsMembers_text ms
    rw [dumpsMembers, widthMembers]
    refine ⟨by simp [hm, hms], ?_⟩
    simp only [List.length_cons, List.length_append, hmlen, hmslen]
    omega

end

theorem length_le_stringWidth (cs : List Char) : cs.length ≤ stringWidth cs := by
  have hchar : ∀ n ∈ cs.map charWidth, 1 ≤ n := by
    intro n hn
    obtain ⟨c, -, rfl⟩ := List.mem_map.mp hn
    unfold charWidth
    split_ifs <;> omega
  have hsum := List.card_nsmul_le_sum _ 1 hchar
  simp only [List.length_map, smul_eq_mul, mul_one] at hsum
  rw [stringWidth]
  omega

theorem widthMember_le_members {m : String × Value} {ms : List (String × Value)} (h : m ∈ ms) :
    widthMember m ≤ widthMembers ms := by
  induction ms with
  | nil => cases h
  | cons m' ms ih =>
    rw [widthMembers]
    rcases List.mem_cons.mp h with rfl | h
    · omega
    · have := ih h
      omega

theorem widthMember_le {m : String × Value} {ms : List (String × Value)} (h : m ∈ ms) :
    widthMember m ≤ Value.width (.dict ms) := by
  cases ms with
  | nil => cases h
  | cons m' ms =>
    rw [Value.width]
    rcases List.mem_cons.mp h with rfl | h
    · omega
    · have := widthMember_le_members h
      omega

theorem encodeUtf8_dumps_length (v : Value) : (encodeUtf8 (dumps v)).length = v.width := by
  rw [encodeUtf8_length_of_ascii (dumps_text v).1, (dumps_text v).2]

end MowerRover.Json
