import MowerRover.Numeric.Bytes
import MowerRover.Numeric.SignedFloat
import MowerRover.Errors

/-!
# Fixed binary layouts

Python's `struct` module for little-endian formats without padding. A format is
the list of its field kinds; packing writes the fields one after the other and
unpacking reads them back. The exceptions are those of `struct.pack` and
`struct.unpack`.
-/

namespace MowerRover.Numeric

inductive StructField
  | uint64
  | float32
  | uint8
  deriving DecidableEq

inductive StructValue
  | int (n : ℤ)
  | float (x : SignedFloat)
  deriving DecidableEq

namespace StructField

def size : StructField → ℕ
  | uint64 => 8
  | float32 => 4
  | uint8 => 1

def unpack : StructField → List UInt8 → StructValue
  | uint64, bytes | uint8, bytes => .int (leValue bytes)
  | float32, bytes => .float (.ofBits (leValue bytes))

def packFloat (x : SignedFloat) : Except PyError (List UInt8) :=
  match x with
  | .fin _ q =>
    if 255 * 2 ^ 23 ≤ SignedFloat.nearestMagnitude q then
      throw (.overflow "float too large to pack with f format")
    else pure (leBytes 4 x.toBits)
  | _ => pure (leBytes 4 x.toBits)

def pack : StructField → StructValue → Except PyError (List UInt8)
  | uint64, .int n =>
    if 0 ≤ n ∧ n < 2 ^ 64 then pure (leBytes 8 n.toNat)
    else throw (.struct "int too large to convert")
  | uint8, .int n =>
    if 0 ≤ n ∧ n < 2 ^ 8 then pure (leBytes 1 n.toNat)
    else throw (.struct "ubyte format requires 0 <= number <= 255")
  | float32, .float x => packFloat x
  | float32, .int n => packFloat (.nearest false n)
  | _, .float _ => throw (.struct "required argument is not an integer")

/-- The value is one the field holds exactly. -/
def Fits : StructField → StructValue → Prop
  | uint64, .int n => 0 ≤ n ∧ n < 2 ^ 64
  | uint8, .int n => 0 ≤ n ∧ n < 2 ^ 8
  | float32, .float x => x.IsSingle
  | _, _ => False

theorem packFloat_number {x : SignedFloat} (h : SignedFloat.ofBits x.toBits = x) :
    packFloat x = .ok (leBytes 4 x.toBits) := by
  cases x with
  | fin s q =>
    have hsmall : ¬255 * 2 ^ 23 ≤ SignedFloat.nearestMagnitude q := by
      intro hlarge
      rw [SignedFloat.toBits, min_eq_right hlarge] at h
      cases s <;> simp [SignedFloat.ofBits, SignedFloat.signBit] at h
    rw [packFloat, if_neg hsmall]
    rfl
  | inf s => rfl
  | nan => rfl

theorem unpack_pack {field : StructField} {value : StructValue} (h : field.Fits value) :
    ∃ bytes, field.pack value = .ok bytes ∧ bytes.length = field.size ∧
      field.unpack bytes = value := by
  match field, value, h with
  | uint64, .int n, h =>
    simp only [Fits] at h
    refine ⟨leBytes 8 n.toNat, by rw [pack, if_pos h]; rfl, by simp [size], ?_⟩
    rw [unpack, leValue_leBytes (by omega), Int.toNat_of_nonneg h.1]
  | uint8, .int n, h =>
    simp only [Fits] at h
    refine ⟨leBytes 1 n.toNat, by rw [pack, if_pos h]; rfl, by simp [size], ?_⟩
    rw [unpack, leValue_leBytes (by omega), Int.toNat_of_nonneg h.1]
  | float32, .float x, h =>
    have hx := SignedFloat.ofBits_toBits h
    refine ⟨leBytes 4 x.toBits, packFloat_number hx, by simp [size], ?_⟩
    rw [unpack, leValue_leBytes (SignedFloat.toBits_lt x), hx]

theorem pack_unpack (field : StructField) (bytes : List UInt8) (hlen : bytes.length = field.size)
    (hnum : field.unpack bytes ≠ .float .nan) : field.pack (field.unpack bytes) = .ok bytes := by
  have hval := leValue_lt bytes
  have hbytes := leBytes_leValue bytes
  rw [hlen] at hval hbytes
  cases field with
  | uint64 =>
    rw [unpack, pack, if_pos ⟨by omega, by exact_mod_cast hval⟩, Int.toNat_natCast]
    exact congrArg Except.ok hbytes
  | uint8 =>
    rw [unpack, pack, if_pos ⟨by omega, by exact_mod_cast hval⟩, Int.toNat_natCast]
    exact congrArg Except.ok hbytes
  | float32 =>
    have hx := SignedFloat.toBits_ofBits hval fun h => hnum (by rw [unpack, h])
    rw [unpack, pack, packFloat_number (by rw [hx]), hx]
    exact congrArg Except.ok hbytes

end StructField

abbrev StructFormat := List StructField

namespace StructFormat

open StructField

/-- `struct.calcsize`. -/
def calcsize (format : StructFormat) : ℕ := (format.map size).sum

def unpackFields : StructFormat → List UInt8 → List StructValue
  | [], _ => []
  | field :: format, bytes =>
    field.unpack (bytes.take field.size) :: unpackFields format (bytes.drop field.size)

def unpack (format : StructFormat) (bytes : List UInt8) : Except PyError (List StructValue) :=
  if bytes.length ≠ calcsize format then
    throw (.struct s!"unpack requires a buffer of {calcsize format} bytes")
  else pure (unpackFields format bytes)

def packFields : StructFormat → List StructValue → Except PyError (List UInt8)
  | field :: format, value :: values => do
    let first ← field.pack value
    let rest ← packFields format values
    pure (first ++ rest)
  | _, _ => pure []

def pack (format : StructFormat) (values : List StructValue) : Except PyError (List UInt8) :=
  if values.length ≠ format.length then
    throw (.struct s!"pack expected {format.length} items for packing (got {values.length})")
  else packFields format values

theorem unpackFields_packed {format : StructFormat} {values : List StructValue}
    (h : List.Forall₂ Fits format values) :
    ∃ bytes, packFields format values = .ok bytes ∧ bytes.length = calcsize format ∧
      unpackFields format bytes = values := by
  induction h with
  | nil => exact ⟨[], rfl, rfl, rfl⟩
  | @cons field value format values hfits _ ih =>
    obtain ⟨first, hfirst, hlen, hvalue⟩ := StructField.unpack_pack hfits
    obtain ⟨rest, hrest, hlen', hvalues⟩ := ih
    refine ⟨first ++ rest, by rw [packFields, hfirst, hrest]; rfl, ?_, ?_⟩
    · simp [calcsize, hlen, hlen']
    · rw [unpackFields, ← hlen, List.take_left, List.drop_left, hvalue, hvalues]

theorem unpack_pack {format : StructFormat} {values : List StructValue}
    (h : List.Forall₂ Fits format values) :
    ∃ bytes, pack format values = .ok bytes ∧ bytes.length = calcsize format ∧
      unpack format bytes = .ok values := by
  obtain ⟨bytes, hpack, hlen, hvalues⟩ := unpackFields_packed h
  refine ⟨bytes, by rw [pack, if_neg (by simp [h.length_eq]), hpack], hlen, ?_⟩
  rw [unpack, if_neg (by simp [hlen]), hvalues]
  rfl

theorem unpackFields_length (format : StructFormat) (bytes : List UInt8) :
    (unpackFields format bytes).length = format.length := by
  induction format generalizing bytes with
  | nil => rfl
  | cons field format ih => simp [unpackFields, ih]

theorem packFields_unpackFields (format : StructFormat) (bytes : List UInt8)
    (hlen : bytes.length = calcsize format)
    (hnum : .float .nan ∉ unpackFields format bytes) :
    packFields format (unpackFields format bytes) = .ok bytes := by
  induction format generalizing bytes with
  | nil =>
    obtain rfl : bytes = [] := List.length_eq_zero_iff.mp hlen
    rfl
  | cons field format ih =>
    simp only [unpackFields, List.mem_cons, not_or] at hnum
    have hsize : bytes.length = field.size + calcsize format := by simpa [calcsize] using hlen
    have hfirst := StructField.pack_unpack field (bytes.take field.size)
      (by rw [List.length_take]; omega) fun h => hnum.1 h.symm
    have hrest := ih (bytes.drop field.size) (by rw [List.length_drop]; omega) hnum.2
    rw [unpackFields, packFields, hfirst, hrest]
    exact congrArg Except.ok (List.take_append_drop _ _)

theorem pack_unpackFields {format : StructFormat} {bytes : List UInt8}
    (hlen : bytes.length = calcsize format)
    (hnum : .float .nan ∉ unpackFields format bytes) :
    pack format (unpackFields format bytes) = .ok bytes := by
  rw [pack, if_neg (by simp [unpackFields_length]), packFields_unpackFields format bytes hlen hnum]

theorem unpackFields_append (format format' : StructFormat) (bytes : List UInt8) :
    unpackFields (format ++ format') bytes =
      unpackFields format bytes ++ unpackFields format' (bytes.drop (calcsize format)) := by
  induction format generalizing bytes with
  | nil => rfl
  | cons field format ih =>
    simp [unpackFields, ih, calcsize, List.drop_drop]

/-- The floats of a run of single-precision fields. -/
def floats (n : ℕ) (bytes : List UInt8) : List SignedFloat :=
  match n with
  | 0 => []
  | n + 1 => .ofBits (leValue (bytes.take 4)) :: floats n (bytes.drop 4)

theorem floats_length (n : ℕ) (bytes : List UInt8) : (floats n bytes).length = n := by
  induction n generalizing bytes with
  | zero => rfl
  | succ n ih => simp [floats, ih]

theorem exists_of_mem_floats {n : ℕ} {bytes : List UInt8} {x : SignedFloat}
    (h : x ∈ floats n bytes) : ∃ i < n, x = .ofBits (leValue ((bytes.drop (4 * i)).take 4)) := by
  induction n generalizing bytes with
  | zero => simp [floats] at h
  | succ n ih =>
    rcases List.mem_cons.mp h with rfl | h
    · exact ⟨0, by omega, rfl⟩
    · obtain ⟨i, hi, rfl⟩ := ih h
      exact ⟨i + 1, by omega, by rw [List.drop_drop, Nat.mul_succ, Nat.add_comm]⟩

theorem unpackFields_floats (n : ℕ) (bytes : List UInt8) :
    unpackFields (List.replicate n float32) bytes = (floats n bytes).map .float := by
  induction n generalizing bytes with
  | zero => rfl
  | succ n ih => simp [List.replicate_succ, unpackFields, floats, StructField.unpack, size, ih]

theorem forall₂_fits_floats {xs : List SignedFloat} (h : ∀ x ∈ xs, x.IsSingle) :
    List.Forall₂ Fits (List.replicate xs.length float32) (xs.map .float) := by
  induction xs with
  | nil => exact .nil
  | cons x xs ih =>
    exact .cons (h x List.mem_cons_self) (ih fun y hy => h y (List.mem_cons_of_mem x hy))

/-- The patterns written one after the other are read back one by one. -/
theorem floats_flatMap (patterns : List UInt32) (rest : List UInt8) :
    floats patterns.length (patterns.flatMap (fun p => leBytes 4 p.toNat) ++ rest) =
      patterns.map fun p => .ofBits p.toNat := by
  induction patterns with
  | nil => rfl
  | cons p patterns ih =>
    have htake : ∀ bs : List UInt8, (leBytes 4 p.toNat ++ bs).take 4 = leBytes 4 p.toNat :=
      fun bs => List.take_left' (leBytes_length 4 _)
    have hdrop : ∀ bs : List UInt8, (leBytes 4 p.toNat ++ bs).drop 4 = bs :=
      fun bs => List.drop_left' (leBytes_length 4 _)
    have hval : leValue (leBytes 4 p.toNat) = p.toNat :=
      leValue_leBytes (lt_of_lt_of_eq p.toNat_lt (by norm_num))
    simp only [List.length_cons, floats, List.flatMap_cons, List.append_assoc, htake, hdrop,
      hval, ih, List.map_cons]

end StructFormat
end MowerRover.Numeric
