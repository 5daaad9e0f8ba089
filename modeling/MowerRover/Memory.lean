import Mathlib.Tactic

/-!
# Bytes in memory

Memory from some place on, with reading, writing and moving of ranges. A range
may lie anywhere: whether it stays within what belongs to the program is a
question about its bounds.
-/

namespace MowerRover

/-- The bytes by their distance from a place. -/
def Memory : Type := ℕ → UInt8

namespace Memory

variable (m : Memory)

def read (start length : ℕ) : List UInt8 := (List.range length).map fun i => m (start + i)

/-- `memcpy` to the place. -/
def write (start : ℕ) (bytes : List UInt8) : Memory := fun i =>
  if start ≤ i then (bytes[i - start]?).getD (m i) else m i

/-- `memmove`: the source is read before anything is written. -/
def move (dst src length : ℕ) : Memory := m.write dst (m.read src length)

variable {m}

@[simp] theorem length_read (start length : ℕ) : (m.read start length).length = length := by
  simp [read]

theorem read_add (start a b : ℕ) : m.read start (a + b) = m.read start a ++
    m.read (start + a) b := by
  rw [read, List.range_add, List.map_append, List.map_map]
  simp [read, Function.comp_def, Nat.add_assoc]

theorem take_read {start length n : ℕ} (h : n ≤ length) :
    (m.read start length).take n = m.read start n := by
  obtain ⟨k, rfl⟩ := Nat.exists_eq_add_of_le h
  rw [read_add, List.take_left' (length_read start n)]

theorem drop_read {start length n : ℕ} (h : n ≤ length) :
    (m.read start length).drop n = m.read (start + n) (length - n) := by
  obtain ⟨k, rfl⟩ := Nat.exists_eq_add_of_le h
  rw [read_add, List.drop_left' (length_read start n), Nat.add_sub_cancel_left]

theorem read_write (start : ℕ) (bytes : List UInt8) :
    (m.write start bytes).read start bytes.length = bytes := by
  apply List.ext_getElem (by simp)
  intro i hi hi'
  simp [read, write, hi']

theorem read_write_before {start length dst : ℕ} (bytes : List UInt8) (h : start + length ≤ dst) :
    (m.write dst bytes).read start length = m.read start length := by
  unfold read
  apply List.map_congr_left
  intro i hi
  rw [List.mem_range] at hi
  rw [write, if_neg (by omega)]

theorem read_move (dst src length : ℕ) :
    (m.move dst src length).read dst length = m.read src length := by
  have hwrite := read_write (m := m) dst (m.read src length)
  rwa [length_read] at hwrite

end Memory

end MowerRover
