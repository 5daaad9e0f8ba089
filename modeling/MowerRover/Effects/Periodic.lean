import Mathlib.Tactic

/-!
# Acts at an interval

A loop reads a clock now and then and acts when the time since its last act has
reached an interval. The acts are then never closer than the interval, and they
are late by no more than the loop was from one reading to the next.
-/

namespace MowerRover.Effects

variable {T : Type} [AddCommGroup T] [LinearOrder T] [IsOrderedAddMonoid T]

/-- Each time is at least the interval after the one before it. -/
def Spaced (interval : T) (times : List T) : Prop := times.IsChain fun a b => interval ≤ b - a

/-- No time is further than `d` from the one before it. -/
def Within (d : T) (times : List T) : Prop := times.IsChain fun a b => b - a ≤ d

instance (interval : T) (times : List T) : Decidable (Spaced interval times) :=
  inferInstanceAs (Decidable (times.IsChain _))

instance (d : T) (times : List T) : Decidable (Within d times) :=
  inferInstanceAs (Decidable (times.IsChain _))

/-- The readings the loop acts on, with the time its last act had before. -/
def acts (interval : T) : T → List T → List T
  | _, [] => []
  | last, now :: later =>
    if interval ≤ now - last then now :: acts interval now later else acts interval last later

/-- The time of the last act after the readings. -/
def lastAct (interval : T) : T → List T → T
  | last, [] => last
  | last, now :: later =>
    if interval ≤ now - last then lastAct interval now later else lastAct interval last later

variable {interval d last prev : T}

section Sublist

omit [IsOrderedAddMonoid T]

theorem acts_sublist (interval last : T) (readings : List T) :
    (acts interval last readings).Sublist readings := by
  induction readings generalizing last with
  | nil => exact List.Sublist.slnil
  | cons now later ih =>
    rw [acts]
    split
    · exact (ih now).cons_cons now
    · exact (ih last).cons now

theorem acts_append (interval last : T) (xs ys : List T) :
    acts interval last (xs ++ ys) =
      acts interval last xs ++ acts interval (lastAct interval last xs) ys := by
  induction xs generalizing last with
  | nil => rfl
  | cons now later ih =>
    simp only [List.cons_append, acts, lastAct]
    split <;> simp [ih]

theorem lastAct_append (interval last : T) (xs ys : List T) :
    lastAct interval last (xs ++ ys) = lastAct interval (lastAct interval last xs) ys := by
  induction xs generalizing last with
  | nil => rfl
  | cons now later ih =>
    simp only [List.cons_append, lastAct]
    split <;> simp [ih]

theorem acts_spaced (interval last : T) (readings : List T) :
    Spaced interval (last :: acts interval last readings) := by
  induction readings generalizing last with
  | nil => exact List.isChain_singleton _
  | cons now later ih =>
    rw [acts]
    split
    · rename_i hdue
      exact List.isChain_cons_cons.mpr ⟨hdue, ih now⟩
    · exact ih last

/-- The last act, if there is one, is the last time of the list. -/
theorem getLast_acts (interval last : T) (readings : List T) :
    (last :: acts interval last readings).getLast (List.cons_ne_nil _ _) =
      lastAct interval last readings := by
  induction readings generalizing last with
  | nil => rfl
  | cons now later ih =>
    simp only [acts, lastAct]
    split
    · rw [List.getLast_cons (List.cons_ne_nil _ _)]
      exact ih now
    · exact ih last

end Sublist

/-- Readings at most `d` apart leave no gap of `interval + d`. -/
theorem acts_within (hpos : 0 < interval) {readings : List T} (hfresh : prev - last < interval)
    (hreadings : Within d (prev :: readings)) :
    (last :: acts interval last readings).IsChain fun a b => b - a < interval + d := by
  induction readings generalizing last prev with
  | nil => exact List.isChain_singleton _
  | cons now later ih =>
    obtain ⟨hstep, hlater⟩ := List.isChain_cons_cons.mp hreadings
    rw [acts]
    split
    · refine List.isChain_cons_cons.mpr ⟨?_, ih (by simpa using hpos) hlater⟩
      calc now - last = (prev - last) + (now - prev) := by abel
        _ < interval + d := add_lt_add_of_lt_of_le hfresh hstep
    · rename_i hearly
      exact ih (not_le.mp hearly) hlater

omit [IsOrderedAddMonoid T] in
/-- After a reading, less than the interval has passed since the last act. -/
theorem lastAct_fresh (hpos : 0 < interval) (hfresh : prev - last < interval) (readings : List T) :
    (prev :: readings).getLast (List.cons_ne_nil _ _) - lastAct interval last readings
      < interval := by
  induction readings generalizing last prev with
  | nil => exact hfresh
  | cons now later ih =>
    rw [List.getLast_cons (List.cons_ne_nil _ _), lastAct]
    split
    · exact ih (by simpa using hpos)
    · rename_i hearly
      exact ih (not_le.mp hearly)

end MowerRover.Effects
