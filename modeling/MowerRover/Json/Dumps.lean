import MowerRover.Json.FloatRepr
import MowerRover.Json.Strings

/-!
# JSON texts

The values `json.dumps` takes, their compact text, and a reader of RFC 8259
texts. Floats that are not finite are written as `NaN` and `Infinity`, which no
JSON text holds: a written value is read back exactly when all its floats are
finite.
-/

namespace MowerRover.Json

open Numeric

/-- A value of Python that `json.dumps` accepts. -/
inductive Value
  | null
  | bool (b : Bool)
  | int (n : ℤ)
  | float (x : Double)
  | str (s : String)
  | list (vs : List Value)
  | dict (members : List (String × Value))

/-- What is read from a text; every number is a double. -/
inductive Item
  | null
  | bool (b : Bool)
  | num (x : Double)
  | str (cs : List Char)
  | array (items : List Item)
  | object (members : List (List Char × Item))

def intNumeral (n : ℤ) : Numeral := ⟨n < 0, decimalDigits n.natAbs, [], 0⟩

def floatText (x : Double) : List Char :=
  match x.value with
  | .fin s q => (finiteNumeral s q).text
  | .inf s => (if s then "-Infinity" else "Infinity").toList
  | .nan => "NaN".toList

mutual

/-- `json.dumps(v, separators=(",", ":"))`. -/
def dumps : Value → List Char
  | .null => "null".toList
  | .bool b => (if b then "true" else "false").toList
  | .int n => (intNumeral n).text
  | .float x => floatText x
  | .str s => dumpsString s.toList
  | .list [] => ['[', ']']
  | .list (v :: vs) => '[' :: (dumps v ++ dumpsItems vs)
  | .dict [] => ['{', '}']
  | .dict (m :: ms) => '{' :: (dumpsMember m ++ dumpsMembers ms)

/-- The items after the first, with the closing bracket. -/
def dumpsItems : List Value → List Char
  | [] => [']']
  | v :: vs => ',' :: (dumps v ++ dumpsItems vs)

def dumpsMember : String × Value → List Char
  | (k, v) => dumpsString k.toList ++ ':' :: dumps v

def dumpsMembers : List (String × Value) → List Char
  | [] => ['}']
  | m :: ms => ',' :: (dumpsMember m ++ dumpsMembers ms)

end

mutual

/-- All floats in the value are finite. -/
def Value.finite : Value → Bool
  | .null | .bool _ | .int _ | .str _ => true
  | .float x => x.isFinite
  | .list vs => finiteItems vs
  | .dict ms => finiteMembers ms

def finiteItems : List Value → Bool
  | [] => true
  | v :: vs => v.finite && finiteItems vs

def finiteMember : String × Value → Bool
  | (_, v) => v.finite

def finiteMembers : List (String × Value) → Bool
  | [] => true
  | m :: ms => finiteMember m && finiteMembers ms

end

mutual

/-- The value as a reader sees it. -/
def Value.read : Value → Item
  | .null => .null
  | .bool b => .bool b
  | .int n => .num (Double.ofInt n)
  | .float x => .num x
  | .str s => .str s.toList
  | .list vs => .array (readItems vs)
  | .dict ms => .object (readMembers ms)

def readItems : List Value → List Item
  | [] => []
  | v :: vs => v.read :: readItems vs

def readMember : String × Value → List Char × Item
  | (k, v) => (k.toList, v.read)

def readMembers : List (String × Value) → List (List Char × Item)
  | [] => []
  | m :: ms => readMember m :: readMembers ms

end

def isWs (c : Char) : Bool := c = ' ' || c = '\t' || c = '\n' || c = '\r'

def skipWs (cs : List Char) : List Char := cs.dropWhile isWs

def literal (text : List Char) (item : Item) (cs : List Char) : Option (Item × List Char) :=
  if text.isPrefixOf cs then some (item, cs.drop text.length) else none

mutual

/-- A value and what follows it; the number bounds the depth and the length. -/
def parseValue : ℕ → List Char → Option (Item × List Char)
  | 0, _ => none
  | fuel + 1, cs =>
    match skipWs cs with
    | [] => none
    | c :: rest =>
      if c = '"' then (parseString rest).map fun r => (.str r.1, r.2)
      else if c = '[' then
        match skipWs rest with
        | ']' :: rest => some (.array [], rest)
        | rest => do
          let (v, rest) ← parseValue fuel rest
          let (vs, rest) ← parseItems fuel rest
          return (.array (v :: vs), rest)
      else if c = '{' then
        match skipWs rest with
        | '}' :: rest => some (.object [], rest)
        | rest => do
          let (m, rest) ← parseMember fuel rest
          let (ms, rest) ← parseMembers fuel rest
          return (.object (m :: ms), rest)
      else if c = 't' then literal "rue".toList (.bool true) rest
      else if c = 'f' then literal "alse".toList (.bool false) rest
      else if c = 'n' then literal "ull".toList .null rest
      else (Numeral.parse (c :: rest)).map fun r => (.num r.1.toDouble, r.2)

def parseItems : ℕ → List Char → Option (List Item × List Char)
  | 0, _ => none
  | fuel + 1, cs =>
    match skipWs cs with
    | ']' :: rest => some ([], rest)
    | ',' :: rest => do
      let (v, rest) ← parseValue fuel rest
      let (vs, rest) ← parseItems fuel rest
      return (v :: vs, rest)
    | _ => none

def parseMember : ℕ → List Char → Option ((List Char × Item) × List Char)
  | 0, _ => none
  | fuel + 1, cs =>
    match skipWs cs with
    | '"' :: rest => do
      let (k, rest) ← parseString rest
      match skipWs rest with
      | ':' :: rest => do
        let (v, rest) ← parseValue fuel rest
        return ((k, v), rest)
      | _ => none
    | _ => none

def parseMembers : ℕ → List Char → Option (List (List Char × Item) × List Char)
  | 0, _ => none
  | fuel + 1, cs =>
    match skipWs cs with
    | '}' :: rest => some ([], rest)
    | ',' :: rest => do
      let (m, rest) ← parseMember fuel rest
      let (ms, rest) ← parseMembers fuel rest
      return (m :: ms, rest)
    | _ => none

end

/-- The value of a whole text. -/
def parse (cs : List Char) : Option Item := do
  let (v, rest) ← parseValue (cs.length + 1) cs
  if skipWs rest = [] then some v else none

def encodeUtf8 (cs : List Char) : List UInt8 := cs.flatMap String.utf8EncodeChar

theorem encodeUtf8_ne_nil {cs : List Char} (h : cs ≠ []) : encodeUtf8 cs ≠ [] := by
  obtain ⟨c, cs, rfl⟩ := List.exists_cons_of_ne_nil h
  rw [encodeUtf8, List.flatMap_cons]
  exact List.append_ne_nil_of_left_ne_nil String.utf8EncodeChar_ne_nil _

def decodeUtf8 (bytes : List UInt8) : Option (List Char) :=
  bytes.toByteArray.utf8Decode?.map Array.toList

theorem decodeUtf8_encodeUtf8 (cs : List Char) : decodeUtf8 (encodeUtf8 cs) = some cs := by
  have h : (encodeUtf8 cs).toByteArray = cs.utf8Encode := rfl
  rw [decodeUtf8, h, List.utf8Decode?_utf8Encode]
  simp

/-- The value of the bytes of a text. -/
def parseBytes (bytes : List UInt8) : Option Item := (decodeUtf8 bytes).bind parse

end MowerRover.Json
