import MowerRover.Numeric.PyFloat
import MowerRover.Errors
import MowerRover.Text

/-!
# YAML documents and Python's conversions

The values `yaml.safe_load` builds from a configuration file, and the built-in
conversions `float`, `int`, `bool` and `str` on them, with the exceptions these
raise.
-/

namespace MowerRover

open Numeric

inductive Yaml
  | null
  | bool (b : Bool)
  | int (i : ℤ)
  | float (f : PyFloat)
  | str (s : String)
  | list (xs : List Yaml)
  | dict (entries : List (Yaml × Yaml))

namespace Yaml

/-- The entry of a mapping under a text key. -/
def lookup (key : String) (entries : List (Yaml × Yaml)) : Option Yaml :=
  entries.findSome? fun
    | (.str k, v) => if k = key then some v else none
    | _ => none

/-- `raw.get(key, default)`. -/
def getD (entries : List (Yaml × Yaml)) (key : String) (default : Yaml) : Yaml :=
  (lookup key entries).getD default

theorem lookup_cons (key k : String) (v : Yaml) (entries : List (Yaml × Yaml)) :
    lookup key ((.str k, v) :: entries) = if k = key then some v else lookup key entries := by
  by_cases h : k = key
  · simp [lookup, h]
  · simp [lookup, h]

theorem getD_of_lookup {entries : List (Yaml × Yaml)} {key : String} {v : Yaml}
    (h : lookup key entries = some v) (default : Yaml) : getD entries key default = v := by
  rw [getD, h, Option.getD_some]

theorem getD_of_absent {entries : List (Yaml × Yaml)} {key : String}
    (h : lookup key entries = none) (default : Yaml) : getD entries key default = default := by
  rw [getD, h, Option.getD_none]

/-- The entries of a mapping; nothing else has any. -/
def entries : Yaml → List (Yaml × Yaml)
  | .dict entries => entries
  | _ => []

def typeName : Yaml → String
  | .null => "NoneType"
  | .bool _ => "bool"
  | .int _ => "int"
  | .float _ => "float"
  | .str _ => "str"
  | .list _ => "list"
  | .dict _ => "dict"

end Yaml

/-- Underscores may only stand between two digits. -/
def underscoresOk : Char → List Char → Bool
  | prev, [] => prev ≠ '_'
  | prev, c :: cs =>
    if c = '_' then prev.isDigit && underscoresOk c cs
    else (prev ≠ '_' || c.isDigit) && underscoresOk c cs

def digitsValue (ds : List Char) : ℕ := ds.foldl (fun n d => 10 * n + (d.toNat - '0'.toNat)) 0

/-- The digits at the front, and what follows them. -/
def spanDigits (cs : List Char) : List Char × List Char := cs.span Char.isDigit

/-- A sign, if there is one: whether it is negative, and what follows. -/
def spanSign : List Char → Bool × List Char
  | '-' :: cs => (true, cs)
  | '+' :: cs => (false, cs)
  | cs => (false, cs)

def signed (negative : Bool) (n : ℕ) : ℤ := if negative then -n else n

/-- The exponent part of a decimal, which may be absent. -/
def exponentOf : List Char → Option ℤ
  | [] => some 0
  | c :: cs =>
    if c = 'e' ∨ c = 'E' then
      let (negative, cs) := spanSign cs
      let (ds, rest) := spanDigits cs
      if ds ≠ [] ∧ rest = [] then some (signed negative (digitsValue ds)) else none
    else none

/-- Digits, an optional fraction and an optional exponent. -/
def decimalOf (cs : List Char) : Option ℚ :=
  let (whole, rest) := spanDigits cs
  let (fraction, rest) := match rest with
    | '.' :: rest => spanDigits rest
    | _ => ([], rest)
  if whole = [] ∧ fraction = [] then none
  else (exponentOf rest).map fun e =>
    (digitsValue (whole ++ fraction) : ℚ) * 10 ^ (e - (fraction.length : ℤ))

/-- The text of a number in ASCII digits, without surrounding blanks and underscores. -/
def numeral (s : String) : Option (List Char) :=
  let cs := (numeralStrip s.toList).map asciiDigit
  if underscoresOk ' ' cs then some (cs.filter (· ≠ '_')) else none

def floatOfString (s : String) : Option PyFloat := do
  let cs ← numeral s
  let (negative, cs) := spanSign cs
  let lower := String.ofList (cs.map Char.toLower)
  if lower = "inf" ∨ lower = "infinity" then some (.inf negative)
  else if lower = "nan" then some .nan
  else (decimalOf cs).map fun q => .ofRat (if negative then -q else q)

def intOfString (s : String) : Option ℤ := do
  let cs ← numeral s
  let (negative, cs) := spanSign cs
  let (ds, rest) := spanDigits cs
  if ds ≠ [] ∧ rest = [] then some (signed negative (digitsValue ds)) else none

/-- The digits of a text without the sign, the underscores and the blanks. -/
def digitCount (s : String) : ℕ := ((numeral s).getD []).countP Char.isDigit

/-- `float(x)` on an integer, which has to fit. -/
def floatOfInt (i : ℤ) : Except PyError PyFloat :=
  match PyFloat.ofRat i with
  | .fin q => pure (.fin q)
  | _ => throw (.overflow "int too large to convert to float")

def pyFloat : Yaml → Except PyError PyFloat
  | .bool b => pure (.fin (if b then 1 else 0))
  | .int i => floatOfInt i
  | .float f => pure f
  | .str s =>
    match floatOfString s with
    | some f => pure f
    | none => throw (.value s!"could not convert string to float: {strRepr s}")
  | raw =>
    throw (.type s!"float() argument must be a string or a real number, not '{raw.typeName}'")

/-- `int(x)` on a float: towards zero. -/
def truncate : PyFloat → Except PyError ℤ
  | .fin q => pure (if q < 0 then ⌈q⌉ else ⌊q⌋)
  | .inf _ => throw (.overflow "cannot convert float infinity to integer")
  | .nan => throw (.value "cannot convert float NaN to integer")

def pyInt : Yaml → Except PyError ℤ
  | .bool b => pure (if b then 1 else 0)
  | .int i => pure i
  | .float f => truncate f
  | .str s =>
    match intOfString s with
    | some i =>
      if maxStrDigits < digitCount s then
        throw (.value s!"Exceeds the limit ({maxStrDigits} digits) for integer string conversion")
      else pure i
    | none =>
      throw (.value ("invalid literal for int() with base 10: " ++
        String.ofList ((strRepr s).toList.take 200)))
  | raw =>
    throw (.type ("int() argument must be a string, a bytes-like object or a real number, not " ++
      s!"'{raw.typeName}'"))

def pyBool : Yaml → Bool
  | .null => false
  | .bool b => b
  | .int i => i ≠ 0
  | .float f => f ≠ .fin 0
  | .str s => s ≠ ""
  | .list xs => !xs.isEmpty
  | .dict entries => !entries.isEmpty

/-- `str(x)`. Of lists, mappings and finite floats only the first character is
given; the code looks at such a text only to refuse it by that character. -/
def pyStr : Yaml → String
  | .null => "None"
  | .bool b => if b then "True" else "False"
  | .int i => toString i
  | .float (.inf negative) => if negative then "-inf" else "inf"
  | .float .nan => "nan"
  | .float (.fin q) => if q < 0 then "-" else "0"
  | .str s => s
  | .list _ => "["
  | .dict _ => "\x7b"

mutual

/-- No integer in the value is too long to be written in decimal. -/
def Yaml.fitsText : Yaml → Bool
  | .int i => i.natAbs < 10 ^ maxStrDigits
  | .list xs => fitsItems xs
  | .dict entries => fitsEntries entries
  | _ => true

def fitsItems : List Yaml → Bool
  | [] => true
  | x :: xs => x.fitsText && fitsItems xs

def fitsEntry : Yaml × Yaml → Bool
  | (k, v) => k.fitsText && v.fitsText

def fitsEntries : List (Yaml × Yaml) → Bool
  | [] => true
  | p :: entries => fitsEntry p && fitsEntries entries

end

/-- `str(x)` with the limit on the length of integers. -/
def strOf (raw : Yaml) : Except PyError String :=
  if raw.fitsText then pure (pyStr raw)
  else throw (.value s!"Exceeds the limit ({maxStrDigits} digits) for integer string conversion")

end MowerRover
