import Mathlib.Tactic

/-!
# JSON strings

The text of a string in ASCII alone, as `json.dumps` writes it, and the reading
of any string of RFC 8259. Both go through UTF-16, in which a character outside
the basic plane is two code units; half a pair is read as the replacement
character.
-/

namespace MowerRover.Json

def utf16Char (c : Char) : List ℕ :=
  if c.toNat < 0x10000 then [c.toNat]
  else [0xD800 + (c.toNat - 0x10000) / 0x400, 0xDC00 + (c.toNat - 0x10000) % 0x400]

def isHigh (u : ℕ) : Bool := 0xD800 ≤ u && u < 0xDC00

def isLow (u : ℕ) : Bool := 0xDC00 ≤ u && u < 0xE000

def replacement : Char := Char.ofNat 0xFFFD

def decodeUtf16 : List ℕ → List Char
  | [] => []
  | [u] => [if isHigh u || isLow u then replacement else Char.ofNat u]
  | u :: v :: us =>
    if isHigh u then
      if isLow v then Char.ofNat (0x10000 + (u - 0xD800) * 0x400 + (v - 0xDC00)) :: decodeUtf16 us
      else replacement :: decodeUtf16 (v :: us)
    else (if isLow u then replacement else Char.ofNat u) :: decodeUtf16 (v :: us)

theorem char_ranges (c : Char) : c.toNat < 0xD800 ∨ 0xDFFF < c.toNat ∧ c.toNat < 0x110000 :=
  c.valid

theorem decodeUtf16_cons {u : ℕ} (hhigh : isHigh u = false) (hlow : isLow u = false)
    (us : List ℕ) : decodeUtf16 (u :: us) = Char.ofNat u :: decodeUtf16 us := by
  cases us with
  | nil => simp [decodeUtf16, hhigh, hlow]
  | cons v us => simp [decodeUtf16, hhigh, hlow]

theorem decodeUtf16_char (c : Char) (us : List ℕ) :
    decodeUtf16 (utf16Char c ++ us) = c :: decodeUtf16 us := by
  have hrange := char_ranges c
  unfold utf16Char
  split_ifs with hsmall
  · have hhigh : isHigh c.toNat = false := by
      simp only [isHigh, Bool.and_eq_false_iff, decide_eq_false_iff_not]
      omega
    have hlow : isLow c.toNat = false := by
      simp only [isLow, Bool.and_eq_false_iff, decide_eq_false_iff_not]
      omega
    rw [List.singleton_append, decodeUtf16_cons hhigh hlow, Char.ofNat_toNat]
  · have hhigh : isHigh (0xD800 + (c.toNat - 0x10000) / 0x400) = true := by
      simp only [isHigh, Bool.and_eq_true, decide_eq_true_eq]
      omega
    have hlow : isLow (0xDC00 + (c.toNat - 0x10000) % 0x400) = true := by
      simp only [isLow, Bool.and_eq_true, decide_eq_true_eq]
      omega
    have hcode : 0x10000 + (0xD800 + (c.toNat - 0x10000) / 0x400 - 0xD800) * 0x400 +
        (0xDC00 + (c.toNat - 0x10000) % 0x400 - 0xDC00) = c.toNat := by omega
    simp only [List.cons_append, List.nil_append, decodeUtf16, hhigh, hlow, if_true, hcode,
      Char.ofNat_toNat]

def hexChar (d : ℕ) : Char := if d < 10 then Char.ofNat (48 + d) else Char.ofNat (87 + d)

def hexOf (c : Char) : Option ℕ :=
  if '0' ≤ c ∧ c ≤ '9' then some (c.toNat - 48)
  else if 'a' ≤ c ∧ c ≤ 'f' then some (c.toNat - 87)
  else if 'A' ≤ c ∧ c ≤ 'F' then some (c.toNat - 55)
  else none

/-- Four hexadecimal digits, the most significant first. -/
def hex4 (u : ℕ) : List Char :=
  [hexChar (u / 0x1000 % 16), hexChar (u / 0x100 % 16), hexChar (u / 0x10 % 16), hexChar (u % 16)]

def ofHex4 (a b c d : Char) : Option ℕ := do
  let a ← hexOf a
  let b ← hexOf b
  let c ← hexOf c
  let d ← hexOf d
  return 0x1000 * a + 0x100 * b + 0x10 * c + d

theorem hexOf_hexChar {d : ℕ} (hd : d < 16) : hexOf (hexChar d) = some d := by
  interval_cases d <;> decide

theorem ofHex4_hex4 {u : ℕ} (hu : u < 0x10000) :
    ofHex4 (hexChar (u / 0x1000 % 16)) (hexChar (u / 0x100 % 16)) (hexChar (u / 0x10 % 16))
      (hexChar (u % 16)) = some u := by
  rw [ofHex4]
  repeat rw [hexOf_hexChar (Nat.mod_lt _ (by norm_num))]
  simp only [Option.bind_eq_bind, Option.bind_some, Option.pure_def, Option.some.injEq]
  omega

/-- The character after the backslash of a short escape. -/
def shortEscape (c : Char) : Option Char :=
  if c = '"' then some '"'
  else if c = '\\' then some '\\'
  else if c = '\n' then some 'n'
  else if c = '\r' then some 'r'
  else if c = '\t' then some 't'
  else if c = Char.ofNat 12 then some 'f'
  else if c = Char.ofNat 8 then some 'b'
  else none

def isPrintable (c : Char) : Bool := ' ' ≤ c && c ≤ '~'

def escapeChar (c : Char) : List Char :=
  match shortEscape c with
  | some e => ['\\', e]
  | none =>
    if isPrintable c then [c]
    else (utf16Char c).flatMap fun u => '\\' :: 'u' :: hex4 u

def escape (cs : List Char) : List Char := cs.flatMap escapeChar

/-- `json.dumps` of a string. -/
def dumpsString (cs : List Char) : List Char := '"' :: (escape cs ++ ['"'])

/-- What a short escape stands for. -/
def unescapeShort (e : Char) : Option ℕ :=
  if e = '"' then some 34
  else if e = '\\' then some 92
  else if e = '/' then some 47
  else if e = 'b' then some 8
  else if e = 'f' then some 12
  else if e = 'n' then some 10
  else if e = 'r' then some 13
  else if e = 't' then some 9
  else none

/-- The code units up to the closing quotation mark, and what follows it. -/
def parseUnits : List Char → Option (List ℕ × List Char)
  | [] => none
  | '"' :: cs => some ([], cs)
  | '\\' :: 'u' :: a :: b :: c :: d :: cs => do
    let u ← ofHex4 a b c d
    let (us, rest) ← parseUnits cs
    return (u :: us, rest)
  | '\\' :: e :: cs => do
    let u ← unescapeShort e
    let (us, rest) ← parseUnits cs
    return (u :: us, rest)
  | c :: cs =>
    if c.toNat < 0x20 || c == '\\' then none
    else do
      let (us, rest) ← parseUnits cs
      return (utf16Char c ++ us, rest)

/-- A string from behind its opening quotation mark. -/
def parseString (cs : List Char) : Option (List Char × List Char) :=
  (parseUnits cs).map fun r => (decodeUtf16 r.1, r.2)

theorem parseUnits_unit {u : ℕ} (hu : u < 0x10000) (cs : List Char) :
    parseUnits ('\\' :: 'u' :: (hex4 u ++ cs)) = (parseUnits cs).map fun r => (u :: r.1, r.2) := by
  simp only [hex4, List.cons_append, List.nil_append, parseUnits, ofHex4_hex4 hu]
  cases parseUnits cs <;> rfl

theorem utf16Char_lt (c : Char) : ∀ u ∈ utf16Char c, u < 0x10000 := by
  have hrange := char_ranges c
  unfold utf16Char
  split_ifs with hsmall
  · intro u hu
    rw [List.mem_singleton] at hu
    omega
  · simp only [List.mem_cons, List.not_mem_nil, or_false]
    intro u hu
    rcases hu with hu | hu <;> rw [hu] <;> omega

theorem parseUnits_units {us : List ℕ} (hus : ∀ u ∈ us, u < 0x10000) (cs : List Char) :
    parseUnits ((us.flatMap fun u => '\\' :: 'u' :: hex4 u) ++ cs) =
      (parseUnits cs).map fun r => (us ++ r.1, r.2) := by
  induction us with
  | nil => simp
  | cons u us ih =>
    have hu := hus u List.mem_cons_self
    rw [List.flatMap_cons, List.append_assoc, List.cons_append, List.cons_append,
      parseUnits_unit hu, ih fun v hv => hus v (List.mem_cons_of_mem _ hv), Option.map_map]
    rfl

theorem utf16Char_of_lt {c : Char} (h : c.toNat < 0x10000) : utf16Char c = [c.toNat] := if_pos h

theorem parseUnits_short {c e : Char} (h : shortEscape c = some e) (cs : List Char) :
    parseUnits ('\\' :: e :: cs) = (parseUnits cs).map fun r => (utf16Char c ++ r.1, r.2) := by
  unfold shortEscape at h
  split_ifs at h with h1 h2 h3 h4 h5 h6 h7 <;> obtain rfl := Option.some.inj h <;> subst c <;>
    rw [utf16Char_of_lt (by decide)] <;> cases hcs : parseUnits cs <;>
    simp [parseUnits, unescapeShort, hcs]

theorem shortEscape_eq_none {c : Char} (h : shortEscape c = none) : c ≠ '"' ∧ c ≠ '\\' := by
  unfold shortEscape at h
  split_ifs at h with h1 h2
  exact ⟨h1, h2⟩

theorem parseUnits_plain {c : Char} (hquote : c ≠ '"') (hslash : c ≠ '\\')
    (hprint : isPrintable c = true) (cs : List Char) :
    parseUnits (c :: cs) = (parseUnits cs).map fun r => (utf16Char c ++ r.1, r.2) := by
  have hspace : ¬ c.toNat < 0x20 := by
    simp only [isPrintable, Bool.and_eq_true, decide_eq_true_eq] at hprint
    exact Nat.not_lt.mpr hprint.1
  rw [parseUnits.eq_def]
  split
  · simp at *
  · rename_i heq
    exact absurd (List.cons.inj heq).1 hquote
  · rename_i heq
    exact absurd (List.cons.inj heq).1 hslash
  · rename_i heq
    exact absurd (List.cons.inj heq).1 hslash
  · rename_i heq
    obtain ⟨rfl, rfl⟩ := List.cons.inj heq
    simp only [hspace, decide_false, Bool.false_or, beq_iff_eq, hslash, if_false]
    cases parseUnits cs <;> rfl

theorem parseUnits_escapeChar (c : Char) (cs : List Char) :
    parseUnits (escapeChar c ++ cs) = (parseUnits cs).map fun r => (utf16Char c ++ r.1, r.2) := by
  unfold escapeChar
  cases hshort : shortEscape c with
  | some e => exact parseUnits_short hshort cs
  | none =>
    obtain ⟨hquote, hslash⟩ := shortEscape_eq_none hshort
    by_cases hprint : isPrintable c = true
    · simpa [hprint] using parseUnits_plain hquote hslash hprint cs
    · simpa [hprint] using parseUnits_units (utf16Char_lt c) cs

theorem parseUnits_escape (cs rest : List Char) :
    parseUnits (escape cs ++ '"' :: rest) = some (cs.flatMap utf16Char, rest) := by
  induction cs with
  | nil => simp [escape, parseUnits]
  | cons c cs ih =>
    rw [escape, List.flatMap_cons, List.append_assoc, parseUnits_escapeChar, ← escape, ih]
    rfl

theorem decodeUtf16_flatMap (cs : List Char) : decodeUtf16 (cs.flatMap utf16Char) = cs := by
  induction cs with
  | nil => rfl
  | cons c cs ih => rw [List.flatMap_cons, decodeUtf16_char, ih]

theorem parseString_dumpsString (cs rest : List Char) :
    parseString (escape cs ++ '"' :: rest) = some (cs, rest) := by
  rw [parseString, parseUnits_escape, Option.map_some, decodeUtf16_flatMap]

end MowerRover.Json
