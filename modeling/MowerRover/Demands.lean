import Mathlib.Tactic

/-!
# What a fallible computation asks for

A computation that may fail meets a list of demands, one after the other: it
succeeds when all of them are met, and otherwise its error is that of the first
one that is not. Chaining two computations chains their demands.
-/

namespace MowerRover

variable {ε δ α β : Type} (met : δ → Bool) (blame : δ → ε → Prop)

/-- The first demand that is not met. -/
def firstUnmet (ds : List δ) : Option δ := ds.find? fun d => !met d

/-- The computation succeeds when every demand is met, and fails with an error that the first
unmet one is to blame for. -/
def Follows (x : Except ε α) (ds : List δ) : Prop :=
  match x with
  | .ok _ => firstUnmet met ds = none
  | .error e => ∃ d, firstUnmet met ds = some d ∧ blame d e

variable {met blame}

theorem firstUnmet_append (ds es : List δ) :
    firstUnmet met (ds ++ es) = (firstUnmet met ds).or (firstUnmet met es) := List.find?_append

theorem firstUnmet_cons_of_met {d : δ} (h : met d = true) (ds : List δ) :
    firstUnmet met (d :: ds) = firstUnmet met ds := by
  rw [firstUnmet, List.find?_cons_of_neg (by simp [h])]
  rfl

theorem firstUnmet_cons_of_unmet {d : δ} (h : met d = false) (ds : List δ) :
    firstUnmet met (d :: ds) = some d := by
  rw [firstUnmet, List.find?_cons_of_pos (by simp [h])]

namespace Follows

variable {x : Except ε α} {ds es : List δ} {d : δ}

theorem ok (a : α) : Follows met blame (.ok a : Except ε α) [] := rfl

theorem error {e : ε} (hd : met d = false) (he : blame d e) (ds : List δ) :
    Follows met blame (.error e : Except ε α) (d :: ds) :=
  ⟨d, firstUnmet_cons_of_unmet hd ds, he⟩

theorem cons (hd : met d = true) (h : Follows met blame x ds) : Follows met blame x (d :: ds) := by
  cases x with
  | ok a => exact (firstUnmet_cons_of_met hd ds).trans h
  | error e =>
    obtain ⟨d', hd', hblame⟩ := h
    exact ⟨d', (firstUnmet_cons_of_met hd ds).trans hd', hblame⟩

theorem append_left (h : firstUnmet met ds = none) (hx : Follows met blame x es) :
    Follows met blame x (ds ++ es) := by
  rw [Follows.eq_def] at hx ⊢
  rw [firstUnmet_append, h]
  exact hx

theorem bind {f : α → Except ε β} (hx : Follows met blame x ds)
    (hf : ∀ a, x = .ok a → Follows met blame (f a) es) : Follows met blame (x >>= f)
      (ds ++ es) := by
  cases x with
  | ok a => exact append_left hx (hf a rfl)
  | error e =>
    obtain ⟨d, hd, hblame⟩ := hx
    exact ⟨d, by rw [firstUnmet_append, hd, Option.some_or], hblame⟩

theorem map (hx : Follows met blame x ds) (f : α → β) : Follows met blame (f <$> x) ds := by
  cases x with
  | ok a => exact hx
  | error e => exact hx

theorem bind_pure (hx : Follows met blame x ds) {f : α → β} :
    Follows met blame (x >>= fun a => pure (f a)) ds := hx.map f

/-- An error that is replaced by one that the same demands are to blame for. -/
theorem tryCatch {handler : ε → Except ε α} (hx : Follows met blame x ds)
    (hh : ∀ e d, x = .error e → blame d e → ∃ e', handler e = .error e' ∧ blame d e') :
    Follows met blame (MonadExcept.tryCatch x handler) ds := by
  cases x with
  | ok a => exact hx
  | error e =>
    obtain ⟨d, hd, hblame⟩ := hx
    obtain ⟨e', he', hblame'⟩ := hh e d rfl hblame
    change Follows met blame (handler e) ds
    rw [he']
    exact ⟨d, hd, hblame'⟩

theorem mapM {f : β → Except ε α} {demands : β → List δ}
    (hf : ∀ b, Follows met blame (f b) (demands b)) (bs : List β) :
    Follows met blame (bs.mapM f) (bs.flatMap demands) := by
  induction bs with
  | nil => exact ok []
  | cons b bs ih =>
    rw [List.mapM_cons, List.flatMap_cons]
    refine (hf b).bind fun a _ => ?_
    exact ih.map (a :: ·)

end Follows

end MowerRover
