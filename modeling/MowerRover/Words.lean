import Mathlib.Tactic

/-!
# Words

A text is split into words at its blanks. Joining words with a blank and
splitting the result gives the words of each of them, one after the other, so
that only words without a blank in them come back.
-/

namespace MowerRover

variable {α : Type}

/-- The words of a text are what stands between its blanks. -/
def words (blank : α → Bool) (text : List α) : List (List α) :=
  (text.splitOnP blank).filter fun w => !w.isEmpty

/-- One word: not empty, and without a blank. -/
def IsWord (blank : α → Bool) (w : List α) : Prop := w ≠ [] ∧ ∀ c ∈ w, blank c = false

section Words

variable {blank : α → Bool}

@[simp] theorem words_nil : words blank [] = [] := by simp [words]

theorem words_append_cons {sep : α} (hsep : blank sep = true) (xs ys : List α) :
    words blank (xs ++ sep :: ys) = words blank xs ++ words blank ys := by
  rw [words, List.splitOnP_append_cons xs ys hsep, List.filter_append]
  rfl

theorem not_blank_of_mem_splitOnP {text w : List α} (hw : w ∈ text.splitOnP blank) :
    ∀ c ∈ w, blank c = false := by
  induction text generalizing w with
  | nil =>
    obtain rfl : w = [] := by simpa using hw
    simp
  | cons x text ih =>
    rw [List.splitOnP_cons_eq_if_modifyHead] at hw
    split_ifs at hw with hx
    · rcases List.mem_cons.mp hw with rfl | hw
      · simp
      · exact ih hw
    · cases hsplit : text.splitOnP blank with
      | nil => exact absurd hsplit (List.splitOnP_ne_nil blank text)
      | cons first rest =>
        rw [hsplit] at hw ih
        rw [List.modifyHead_cons] at hw
        rcases List.mem_cons.mp hw with rfl | hw
        · exact List.forall_mem_cons.mpr ⟨by simpa using hx, ih List.mem_cons_self⟩
        · exact ih (List.mem_cons_of_mem _ hw)

theorem isWord_of_mem_words {text w : List α} (hw : w ∈ words blank text) : IsWord blank w := by
  obtain ⟨hmem, hne⟩ := List.mem_filter.mp hw
  exact ⟨by simpa using hne, not_blank_of_mem_splitOnP hmem⟩

theorem words_of_isWord {w : List α} (hw : IsWord blank w) : words blank w = [w] := by
  rw [words, List.splitOnP_eq_singleton hw.2]
  simp [hw.1]

theorem words_intercalate {sep : α} (hsep : blank sep = true) (ws : List (List α)) :
    words blank ([sep].intercalate ws) = ws.flatMap (words blank) := by
  induction ws with
  | nil => simp
  | cons w ws ih =>
    cases ws with
    | nil => simp
    | cons v ws =>
      rw [List.intercalate_cons_cons, List.append_assoc, List.singleton_append,
        words_append_cons hsep, ih, ← List.flatMap_cons]

theorem words_intercalate_eq_iff {sep : α} (hsep : blank sep = true) {ws : List (List α)} :
    words blank ([sep].intercalate ws) = ws ↔ ∀ w ∈ ws, IsWord blank w := by
  constructor
  · intro h w hw
    rw [← h] at hw
    exact isWord_of_mem_words hw
  · intro h
    rw [words_intercalate hsep]
    induction ws with
    | nil => rfl
    | cons w ws ih =>
      rw [List.forall_mem_cons] at h
      rw [List.flatMap_cons, words_of_isWord h.1, ih h.2, List.singleton_append]

end Words

end MowerRover
