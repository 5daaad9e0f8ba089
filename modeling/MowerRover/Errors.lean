import Mathlib.Tactic

/-!
# Python exceptions

The exceptions the modelled code raises, by class, with the text the source
gives them. `KeyboardInterrupt` and the other classes outside `Exception` are
not raised by the program and are left out.
-/

namespace MowerRover

inductive PyError
  | missionUpload (message : String)
  | missionDownload (message : String)
  | zoneUpload (message : String)
  | zoneConfig (message : String)
  | connection (message : String)
  | runtime (message : String)
  | ssh (message : String)
  | badParameter (message : String)
  | confirmationAborted (message : String)
  /-- the text of the exception is its positional argument, if it has one -/
  | exit (code : ℕ) (message : String)
  | attribute (message : String)
  | value (message : String)
  | type (message : String)
  | overflow (message : String)
  | fileNotFound (message : String)
  | timeout (message : String)
  | os (message : String)
  | struct (message : String)
  | other (message : String)
  deriving DecidableEq, Repr

/-- `str(exc)`. -/
def PyError.str : PyError → String
  | .missionUpload m | .missionDownload m | .zoneUpload m | .zoneConfig m | .connection m
  | .runtime m | .ssh m | .badParameter m | .confirmationAborted m | .exit _ m | .attribute m
  | .value m | .type m | .overflow m | .fileNotFound m | .timeout m | .os m | .struct m |
      .other m => m

/-- The class is `OSError` or one derived from it. -/
def PyError.isOSError : PyError → Bool
  | .connection _ | .fileNotFound _ | .timeout _ | .os _ => true
  | _ => false

@[simp] theorem pure_eq_ok {ε α : Type} (a : α) : (pure a : Except ε α) = .ok a := rfl

@[simp] theorem throw_eq_error {ε α : Type} (e : ε) : (throw e : Except ε α) = .error e := rfl

@[simp] theorem ok_bind {ε α β : Type} (a : α) (f : α → Except ε β) : (.ok a >>= f) = f a := rfl

@[simp] theorem error_bind {ε α β : Type} (e : ε) (f : α → Except ε β) :
    (Except.error e >>= f) = .error e := rfl

theorem bind_eq_ok {ε α β : Type} {x : Except ε α} {f : α → Except ε β} {b : β} :
    (x >>= f) = .ok b ↔ ∃ a, x = .ok a ∧ f a = .ok b := by
  cases x with
  | error e => simp
  | ok a => simp

theorem map_eq_ok {ε α β : Type} {x : Except ε α} {f : α → β} {b : β} :
    f <$> x = .ok b ↔ ∃ a, x = .ok a ∧ f a = b := by
  cases x with
  | error e => simp
  | ok a => simp

theorem mapM_eq_pure {m : Type → Type} [Monad m] [LawfulMonad m] {α β : Type} {f : α → m β}
    {g : α → β} {xs : List α} (h : ∀ x ∈ xs, f x = pure (g x)) : xs.mapM f = pure (xs.map g) := by
  induction xs with
  | nil => rfl
  | cons x xs ih =>
    rw [List.forall_mem_cons] at h
    simp [h.1, ih h.2]

/-- Every result of the steps is the result of one of them. -/
theorem exists_of_mem_mapM {ε α β : Type} {f : α → Except ε β} {xs : List α} {ys : List β} {y : β}
    (h : xs.mapM f = .ok ys) (hy : y ∈ ys) : ∃ x ∈ xs, f x = .ok y := by
  induction xs generalizing ys with
  | nil =>
    obtain rfl : [] = ys := by simpa using h
    cases hy
  | cons x xs ih =>
    simp only [List.mapM_cons, bind_eq_ok] at h
    obtain ⟨z, hz, zs, hzs, h⟩ := h
    obtain rfl := Except.ok.inj h
    rcases List.mem_cons.mp hy with rfl | hy
    · exact ⟨x, List.mem_cons_self, hz⟩
    · obtain ⟨x', hx', hy'⟩ := ih hzs hy
      exact ⟨x', List.mem_cons_of_mem _ hx', hy'⟩

theorem exists_ok_of_isOk {ε α : Type} {x : Except ε α} (h : x.isOk = true) :
    ∃ a, x = .ok a := by
  cases x with
  | error e => simp [Except.isOk, Except.toBool] at h
  | ok a => exact ⟨a, rfl⟩

end MowerRover
