import Mathlib.Tactic

/-!
# Histories of a machine

A machine takes one step for each event. What its state says about the past is
settled by what each step does to it: a flag that a step raises under some
condition and that nothing lowers is up exactly when the condition was met at
some step. Nothing here knows the machine.
-/

namespace MowerRover.Effects

variable {σ α : Type} (step : σ → α → σ) (start : σ)

/-- The state after the events. -/
def after (es : List α) : σ := es.foldl step start

@[simp] theorem after_append_singleton (es : List α) (e : α) :
    after step start (es ++ [e]) = step (after step start es) e := by
  rw [after, List.foldl_append]
  rfl

theorem after_invariant {I : σ → Prop} (hstart : I start) (hstep : ∀ s e, I s → I (step s e))
    (es : List α) : I (after step start es) := by
  induction es using List.reverseRecOn with
  | nil => exact hstart
  | append_singleton es e ih =>
    rw [after_append_singleton]
    exact hstep _ e ih

/-- Some event of the run met the condition in the state before it. -/
def Happened (P : σ → α → Prop) (es : List α) : Prop :=
  ∃ pre e post, es = pre ++ e :: post ∧ P (after step start pre) e

variable {step start} {P : σ → α → Prop}

theorem not_happened_nil : ¬ Happened step start P [] := by
  rintro ⟨pre, e, post, h, -⟩
  simp at h

theorem happened_append_singleton {es : List α} {e : α} :
    Happened step start P (es ++ [e]) ↔ Happened step start P es ∨ P (after step start es) e := by
  constructor
  · rintro ⟨pre, d, post, h, hP⟩
    rcases List.eq_nil_or_concat post with rfl | ⟨post, d', rfl⟩
    · obtain ⟨rfl, hd⟩ := List.append_inj' h rfl
      obtain rfl := List.singleton_inj.mp hd
      exact .inr hP
    · rw [List.concat_eq_append, ← List.cons_append, ← List.append_assoc] at h
      obtain ⟨rfl, -⟩ := List.append_inj' h rfl
      exact .inl ⟨pre, d, post, rfl, hP⟩
  · rintro (⟨pre, d, post, rfl, hP⟩ | hP)
    · exact ⟨pre, d, post ++ [e], by simp, hP⟩
    · exact ⟨es, e, [], rfl, hP⟩

/-- A flag that is down at the start, that a step raises exactly under the condition and that
none lowers. -/
theorem flag_iff_happened {flag : σ → Prop} (hstart : ¬ flag start)
    (hstep : ∀ s e, flag (step s e) ↔ flag s ∨ P s e) (es : List α) :
    flag (after step start es) ↔ Happened step start P es := by
  induction es using List.reverseRecOn with
  | nil => exact iff_of_false hstart not_happened_nil
  | append_singleton es e ih =>
    rw [after_append_singleton, hstep, ih, happened_append_singleton]

end MowerRover.Effects
