import Mathlib.Data.List.DropRight
import Mathlib.Tactic

/-!
# Bounded windows

A queue of bounded length keeps the last items that were put into it. If an item
meets a condition only when all later ones do, then the queue holds as many that
meet it as there ever were, up to its length.
-/

namespace MowerRover.Effects

variable {α : Type} {n : ℕ}

/-- A new item into a queue of at most `n`. -/
def push (n : ℕ) (items : List α) (a : α) : List α := (items ++ [a]).rtake n

theorem push_rtake (items : List α) (a : α) : push n (items.rtake n) a =
    (items ++ [a]).rtake n := by
  cases n with
  | zero => simp [push]
  | succ n =>
    rw [push, List.rtake_concat_succ, List.rtake_concat_succ]
    simp only [List.rtake_eq_reverse_take_reverse, List.reverse_reverse, List.take_take,
      Nat.min_eq_left (Nat.le_succ n)]

theorem getLast?_rtake_concat (hn : n ≠ 0) (items : List α) (a : α) :
    ((items ++ [a]).rtake n).getLast? = some a := by
  obtain ⟨m, rfl⟩ := Nat.exists_eq_succ_of_ne_zero hn
  rw [List.rtake_concat_succ, List.getLast?_concat]

/-- The items that meet the condition are the last ones. -/
theorem countP_rtake {p : α → Bool} {items : List α}
    (hlast : items.Pairwise fun a b => p a = true → p b = true) :
    (items.rtake n).countP p = min n (items.countP p) := by
  induction items using List.reverseRecOn generalizing n with
  | nil => simp
  | append_singleton items a ih =>
    obtain ⟨hitems, -, hbefore⟩ := List.pairwise_append.mp hlast
    cases n with
    | zero => simp
    | succ n =>
      rw [List.rtake_concat_succ, List.countP_append, List.countP_append, ih hitems,
        List.countP_singleton]
      by_cases ha : p a = true
      · rw [if_pos ha, Nat.add_min_add_right]
      · have hnone : items.countP p = 0 :=
          List.countP_eq_zero.mpr fun b hb hpb => ha (hbefore b hb a (by simp) hpb)
        simp [ha, hnone]

end MowerRover.Effects
