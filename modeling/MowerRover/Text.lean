import Mathlib.Tactic

/-!
# Python text operations

`str.strip` with Python's notion of white space, and the decimal digits that
`float()` and `int()` take, those of Unicode 14. The case tables of Unicode are
a parameter: of `str.upper` only its effect on ASCII text is fixed.
-/

namespace MowerRover

def pyIsSpace (c : Char) : Bool :=
  let n := c.toNat
  (9 ≤ n && n ≤ 13) || (28 ≤ n && n ≤ 32) || n = 0x85 || n = 0xa0 || n = 0x1680 ||
    (0x2000 ≤ n && n ≤ 0x200a) || n = 0x2028 || n = 0x2029 || n = 0x202f || n = 0x205f || n = 0x3000

def pyStrip (cs : List Char) : List Char :=
  ((cs.dropWhile pyIsSpace).reverse.dropWhile pyIsSpace).reverse

/-- The blanks around a number; the separators U+001C to U+001F are none. -/
def numeralSpace (c : Char) : Bool := pyIsSpace c && !(28 ≤ c.toNat && c.toNat ≤ 31)

def numeralStrip (cs : List Char) : List Char :=
  ((cs.dropWhile numeralSpace).reverse.dropWhile numeralSpace).reverse

/-- The longest decimal that `int()` reads and `str()` writes. -/
def maxStrDigits : ℕ := 4300

/-- The decimal zeros; the other nine digits of a script follow its zero. -/
def decimalZeros : List ℕ :=
  [0x30, 0x660, 0x6f0, 0x7c0, 0x966, 0x9e6, 0xa66, 0xae6, 0xb66, 0xbe6, 0xc66, 0xce6, 0xd66,
    0xde6, 0xe50, 0xed0, 0xf20, 0x1040, 0x1090, 0x17e0, 0x1810, 0x1946, 0x19d0, 0x1a80, 0x1a90,
    0x1b50, 0x1bb0, 0x1c40, 0x1c50, 0xa620, 0xa8d0, 0xa900, 0xa9d0, 0xa9f0, 0xaa50, 0xabf0,
    0xff10, 0x104a0, 0x10d30, 0x11066, 0x110f0, 0x11136, 0x111d0, 0x112f0, 0x11450, 0x114d0,
    0x11650, 0x116c0, 0x11730, 0x118e0, 0x11950, 0x11c50, 0x11d50, 0x11da0, 0x16a60, 0x16ac0,
    0x16b50, 0x1d7ce, 0x1d7d8, 0x1d7e2, 0x1d7ec, 0x1d7f6, 0x1e140, 0x1e2f0, 0x1e950, 0x1fbf0]

/-- The value of the decimal digit with this code point. -/
def decimalValue (n : ℕ) : Option ℕ :=
  (decimalZeros.find? fun first => first ≤ n && n < first + 10).map (n - ·)

/-- A decimal digit of any script as the ASCII digit, and any other character as it is. -/
def asciiDigit (c : Char) : Char :=
  match decimalValue c.toNat with
  | some value => Char.ofNat ('0'.toNat + value)
  | none => c

/-- A character of a text in quotes, with the escapes for what is not to be seen in ASCII. -/
def reprChar (quote c : Char) : List Char :=
  let backslash := Char.ofNat 92
  let digit (n : ℕ) : Char := "0123456789abcdef".toList.getD n '0'
  if c = quote ∨ c = backslash then [backslash, c]
  else if c = '\n' then [backslash, 'n']
  else if c = '\r' then [backslash, 'r']
  else if c = '\t' then [backslash, 't']
  else if c.toNat < 32 ∨ c.toNat = 127 then
    [backslash, 'x', digit (c.toNat / 16), digit (c.toNat % 16)]
  else [c]

/-- `repr` of a text: in single quotes, unless these are in it and double quotes are not. -/
def strRepr (s : String) : String :=
  let cs := s.toList
  let single := Char.ofNat 39
  let quote := if single ∈ cs ∧ '"' ∉ cs then '"' else single
  String.ofList (quote :: cs.flatMap (reprChar quote) ++ [quote])

def isAscii (cs : List Char) : Bool := cs.all fun c => c.toNat < 128

/-- `str.upper`. -/
structure CaseMap where
  upper : List Char → List Char
  upper_ascii : ∀ cs, isAscii cs = true → upper cs = cs.map Char.toUpper

/-- Upper-casing twice is upper-casing once. -/
def CaseMap.Idempotent (cm : CaseMap) : Prop := ∀ cs, cm.upper (cm.upper cs) = cm.upper cs

/-- The case table that leaves everything outside ASCII alone. -/
def CaseMap.asciiOnly : CaseMap := ⟨List.map Char.toUpper, fun _ _ => rfl⟩

theorem toUpper_toUpper (c : Char) : c.toUpper.toUpper = c.toUpper := by
  by_cases h : 'a'.val ≤ c.val ∧ c.val ≤ 'z'.val
  · have hval : c.toUpper.val = c.val + ('A'.val - 'a'.val) := by
      delta Char.toUpper
      rw [dif_pos h]
    have hout : ¬('a'.val ≤ c.toUpper.val ∧ c.toUpper.val ≤ 'z'.val) := by
      rw [hval]
      simp only [UInt32.le_iff_toNat_le, UInt32.toNat_add] at h ⊢
      have hshift : ('A'.val - 'a'.val).toNat = 2 ^ 32 - 32 := by decide
      have ha : 'a'.val.toNat = 97 := by decide
      have hz : 'z'.val.toNat = 122 := by decide
      omega
    exact dif_neg hout
  · have hc : c.toUpper = c := dif_neg h
    rw [hc, hc]

theorem CaseMap.idempotent_asciiOnly : asciiOnly.Idempotent := by
  intro cs
  change (cs.map Char.toUpper).map Char.toUpper = cs.map Char.toUpper
  rw [List.map_map]
  apply List.map_congr_left
  intro c _
  exact toUpper_toUpper c

end MowerRover
