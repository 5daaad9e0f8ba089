import Mathlib.Tactic

/-!
# Sequential programs against an environment

A program is a tree of calls to its surroundings: a message sent, a message
awaited, a clock read. A handler plays the surroundings; it answers each call
from a state of its own and may leave observable events behind. Programs are
well-founded, so every run ends, and the run is a function: whatever the
surroundings can choose is part of the handler's state.

Nothing here knows which calls there are.
-/

namespace MowerRover.Effects

/-- The calls a program may make, and the type of the answer to each. -/
structure Signature where
  Op : Type
  Ans : Op → Type

/-- A program over the calls of `S` that ends with a value or an exception. -/
inductive Program (S : Signature) (ε α : Type) : Type
  | done (a : α)
  | fail (x : ε)
  | call (op : S.Op) (next : S.Ans op → Program S ε α)

/-- Surroundings with state `σ` that leave events of type `τ`. -/
abbrev Handler (S : Signature) (σ τ : Type) :=
  (op : S.Op) → σ → S.Ans op × σ × List τ

/-- What is left when a run is over. -/
structure Outcome (ε α σ τ : Type) where
  result : Except ε α
  state : σ
  events : List τ

namespace Outcome

variable {ε α β σ τ : Type}

/-- An outcome with the events that came before it. -/
def after (events : List τ) (o : Outcome ε α σ τ) : Outcome ε α σ τ :=
  ⟨o.result, o.state, events ++ o.events⟩

/-- Continue an outcome with the run of what follows, when it has not failed. -/
def andThen (o : Outcome ε α σ τ) (f : α → σ → Outcome ε β σ τ) : Outcome ε β σ τ :=
  match o.result with
  | .ok a => (f a o.state).after o.events
  | .error x => ⟨.error x, o.state, o.events⟩

/-- Continue an outcome with the exception handler, when it has failed. -/
def orElse (o : Outcome ε α σ τ) (f : ε → σ → Outcome ε α σ τ) : Outcome ε α σ τ :=
  match o.result with
  | .ok _ => o
  | .error x => (f x o.state).after o.events

@[simp] theorem after_result (ev : List τ) (o : Outcome ε α σ τ) :
    (o.after ev).result = o.result := rfl

@[simp] theorem after_state (ev : List τ) (o : Outcome ε α σ τ) :
    (o.after ev).state = o.state := rfl

@[simp] theorem after_events (ev : List τ) (o : Outcome ε α σ τ) :
    (o.after ev).events = ev ++ o.events := rfl

@[simp] theorem after_nil (o : Outcome ε α σ τ) : o.after [] = o := rfl

@[simp] theorem after_after (ev ev' : List τ) (o : Outcome ε α σ τ) :
    (o.after ev').after ev = o.after (ev ++ ev') := by simp [after]

theorem andThen_ok {o : Outcome ε α σ τ} {a : α} (h : o.result = .ok a)
    (f : α → σ → Outcome ε β σ τ) : o.andThen f = (f a o.state).after o.events := by
  simp [andThen, h]

theorem andThen_error {o : Outcome ε α σ τ} {x : ε} (h : o.result = .error x)
    (f : α → σ → Outcome ε β σ τ) : o.andThen f = ⟨.error x, o.state, o.events⟩ := by
  simp [andThen, h]

@[simp] theorem andThen_mk_ok (a : α) (s : σ) (ev : List τ) (f : α → σ → Outcome ε β σ τ) :
    (⟨.ok a, s, ev⟩ : Outcome ε α σ τ).andThen f = (f a s).after ev := rfl

@[simp] theorem andThen_mk_error (x : ε) (s : σ) (ev : List τ) (f : α → σ → Outcome ε β σ τ) :
    (⟨.error x, s, ev⟩ : Outcome ε α σ τ).andThen f = ⟨.error x, s, ev⟩ := rfl

theorem after_andThen (ev : List τ) (o : Outcome ε α σ τ) (f : α → σ → Outcome ε β σ τ) :
    (o.after ev).andThen f = (o.andThen f).after ev := by
  cases h : o.result <;> simp [andThen, after, h]

theorem orElse_ok {o : Outcome ε α σ τ} {a : α} (h : o.result = .ok a)
    (f : ε → σ → Outcome ε α σ τ) : o.orElse f = o := by
  simp [orElse, h]

theorem orElse_error {o : Outcome ε α σ τ} {x : ε} (h : o.result = .error x)
    (f : ε → σ → Outcome ε α σ τ) : o.orElse f = (f x o.state).after o.events := by
  simp [orElse, h]

theorem after_orElse (ev : List τ) (o : Outcome ε α σ τ) (f : ε → σ → Outcome ε α σ τ) :
    (o.after ev).orElse f = (o.orElse f).after ev := by
  cases h : o.result <;> simp [orElse, after, h]

end Outcome

namespace Program

variable {S : Signature} {ε α β σ τ : Type}

def bind : Program S ε α → (α → Program S ε β) → Program S ε β
  | .done a, f => f a
  | .fail x, _ => .fail x
  | .call op next, f => .call op fun r => (next r).bind f

/-- Python's `try: p  except: h`, with the handler choosing what to let through. -/
def catchWith : Program S ε α → (ε → Program S ε α) → Program S ε α
  | .done a, _ => .done a
  | .fail x, h => h x
  | .call op next, h => .call op fun r => (next r).catchWith h

instance : Monad (Program S ε) where
  pure := .done
  bind := bind

theorem bind_done (p : Program S ε α) : p.bind .done = p := by
  induction p with
  | done a => rfl
  | fail x => rfl
  | call op next ih => simp only [bind, ih]

theorem bind_bind {γ : Type} (p : Program S ε α) (f : α → Program S ε β)
    (g : β → Program S ε γ) : (p.bind f).bind g = p.bind fun a => (f a).bind g := by
  induction p with
  | done a => rfl
  | fail x => rfl
  | call op next ih => simp only [bind, ih]

instance : LawfulMonad (Program S ε) :=
  LawfulMonad.mk' _ bind_done (fun _ _ => rfl) bind_bind

instance : MonadExceptOf ε (Program S ε) where
  throw := .fail
  tryCatch := catchWith

/-- The program that makes one call and returns its answer. -/
def perform (op : S.Op) : Program S ε (S.Ans op) := .call op .done

def run (h : Handler S σ τ) : Program S ε α → σ → Outcome ε α σ τ
  | .done a, s => ⟨.ok a, s, []⟩
  | .fail x, s => ⟨.error x, s, []⟩
  | .call op next, s =>
    let answer := h op s
    ((next answer.1).run h answer.2.1).after answer.2.2

variable (h : Handler S σ τ)

@[simp] theorem run_pure (a : α) (s : σ) :
    (pure a : Program S ε α).run h s = ⟨.ok a, s, []⟩ := rfl

@[simp] theorem run_throw (x : ε) (s : σ) :
    (throw x : Program S ε α).run h s = ⟨.error x, s, []⟩ := rfl

theorem run_call (op : S.Op) (next : S.Ans op → Program S ε α) (s : σ) :
    (call op next).run h s = ((next (h op s).1).run h (h op s).2.1).after (h op s).2.2 := rfl

theorem run_perform (op : S.Op) (s : σ) :
    (perform op : Program S ε (S.Ans op)).run h s =
      ⟨.ok (h op s).1, (h op s).2.1, (h op s).2.2⟩ := by
  simp [perform, run, Outcome.after]

theorem run_bind (p : Program S ε α) (f : α → Program S ε β) (s : σ) :
    (p >>= f).run h s = (p.run h s).andThen fun a s' => (f a).run h s' := by
  change (p.bind f).run h s = _
  induction p generalizing s with
  | done a => rfl
  | fail x => rfl
  | call op next ih => simp only [bind, run_call, ih, Outcome.after_andThen]

theorem run_map (f : α → β) (p : Program S ε α) (s : σ) :
    (f <$> p).run h s = (p.run h s).andThen fun a s' => ⟨.ok (f a), s', []⟩ :=
  run_bind h p (fun a => pure (f a)) s

theorem run_tryCatch (p : Program S ε α) (f : ε → Program S ε α) (s : σ) :
    (tryCatch p f).run h s = (p.run h s).orElse fun x s' => (f x).run h s' := by
  change (p.catchWith f).run h s = _
  induction p generalizing s with
  | done a => rfl
  | fail x => rfl
  | call op next ih => simp only [catchWith, run_call, ih, Outcome.after_orElse]

/-- A program with its exception as a value. -/
def attempt (p : Program S ε α) : Program S ε (Except ε α) :=
  tryCatch (Except.ok <$> p) fun x => pure (.error x)

theorem run_attempt (p : Program S ε α) (s : σ) :
    p.attempt.run h s = ⟨.ok (p.run h s).result, (p.run h s).state, (p.run h s).events⟩ := by
  rw [attempt, run_tryCatch, run_map]
  cases hr : (p.run h s).result with
  | ok a =>
    rw [Outcome.andThen_ok hr]
    simp [Outcome.orElse, Outcome.after]
  | error x =>
    rw [Outcome.andThen_error hr]
    simp [Outcome.orElse, Outcome.after]

/-- Whatever the answers are, the program makes allowed calls only. -/
def Calls (allowed : S.Op → Prop) : Program S ε α → Prop
  | .done _ | .fail _ => True
  | .call op next => allowed op ∧ ∀ r, (next r).Calls allowed

variable {allowed : S.Op → Prop}

@[simp] theorem calls_pure (a : α) : (pure a : Program S ε α).Calls allowed := trivial

@[simp] theorem calls_throw (x : ε) : (throw x : Program S ε α).Calls allowed := trivial

theorem calls_perform {op : S.Op} (ho : allowed op) :
    (perform op : Program S ε (S.Ans op)).Calls allowed := ⟨ho, fun _ => trivial⟩

theorem Calls.bind {p : Program S ε α} {f : α → Program S ε β} (hp : p.Calls allowed)
    (hf : ∀ a, (f a).Calls allowed) : (p >>= f).Calls allowed := by
  change (p.bind f).Calls allowed
  induction p with
  | done a => exact hf a
  | fail x => trivial
  | call op next ih => exact ⟨hp.1, fun r => ih r (hp.2 r)⟩

theorem Calls.map {p : Program S ε α} (hp : p.Calls allowed) (f : α → β) :
    (f <$> p).Calls allowed := hp.bind fun _ => trivial

theorem Calls.tryCatch {p : Program S ε α} {f : ε → Program S ε α} (hp : p.Calls allowed)
    (hf : ∀ x, (f x).Calls allowed) : (tryCatch p f).Calls allowed := by
  change (p.catchWith f).Calls allowed
  induction p with
  | done a => trivial
  | fail x => exact hf x
  | call op next ih => exact ⟨hp.1, fun r => ih r (hp.2 r)⟩

theorem Calls.attempt {p : Program S ε α} (hp : p.Calls allowed) : p.attempt.Calls allowed :=
  (hp.map Except.ok).tryCatch fun _ => trivial

theorem Calls.mono {allowed' : S.Op → Prop} (himp : ∀ op, allowed op → allowed' op)
    {p : Program S ε α} (hp : p.Calls allowed) : p.Calls allowed' := by
  induction p with
  | done a => trivial
  | fail x => trivial
  | call op next ih => exact ⟨himp op hp.1, fun r => ih r (hp.2 r)⟩

theorem calls_true (p : Program S ε α) : p.Calls fun _ => True := by
  induction p with
  | done a => trivial
  | fail x => trivial
  | call op next ih => exact ⟨trivial, ih⟩

/-- What every allowed call keeps true of the events so far and the surroundings,
every run keeps true. -/
theorem run_history {h : Handler S σ τ} {I : List τ → σ → Prop}
    (hstep : ∀ op ev s, allowed op → I ev s → I (ev ++ (h op s).2.2) (h op s).2.1)
    {p : Program S ε α} (hp : p.Calls allowed) (ev : List τ) (s : σ) (hs : I ev s) :
    I (ev ++ (p.run h s).events) (p.run h s).state := by
  induction p generalizing ev s with
  | done a => simpa [run] using hs
  | fail x => simpa [run] using hs
  | call op next ih =>
    rw [run_call, Outcome.after_events, ← List.append_assoc]
    exact ih _ (hp.2 _) _ _ (hstep op ev s hp.1 hs)

theorem run_invariant {h : Handler S σ τ} {I : σ → Prop}
    (hstep : ∀ op s, allowed op → I s → I (h op s).2.1) {p : Program S ε α}
    (hp : p.Calls allowed) {s : σ} (hs : I s) : I (p.run h s).state :=
  run_history (I := fun _ s => I s) (fun op _ s => hstep op s) hp [] s hs

theorem run_events {h : Handler S σ τ} {E : τ → Prop}
    (hstep : ∀ op s, allowed op → ∀ e ∈ (h op s).2.2, E e) {p : Program S ε α}
    (hp : p.Calls allowed) (s : σ) : ∀ e ∈ (p.run h s).events, E e := by
  refine run_history (I := fun ev _ => ∀ e ∈ ev, E e) ?_ hp [] s (by simp)
  intro op ev s ho hev e he
  exact (List.mem_append.mp he).elim (hev e) (hstep op s ho e)

/-- The same program with its calls renamed into those of another signature. -/
def mapOps {T : Signature} (f : S.Op → T.Op) (back : ∀ op, T.Ans (f op) → S.Ans op) :
    Program S ε α → Program T ε α
  | .done a => .done a
  | .fail x => .fail x
  | .call op next => .call (f op) fun r => (next (back op r)).mapOps f back

theorem run_mapOps {T : Signature} (f : S.Op → T.Op) (back : ∀ op, T.Ans (f op) → S.Ans op)
    (h : Handler T σ τ) (p : Program S ε α) (s : σ) :
    (p.mapOps f back).run h s =
      p.run (fun op s => (back op (h (f op) s).1, (h (f op) s).2)) s := by
  induction p generalizing s with
  | done a => rfl
  | fail x => rfl
  | call op next ih => simp only [mapOps, run_call, ih]

theorem Calls.mapOps {T : Signature} {f : S.Op → T.Op} {back : ∀ op, T.Ans (f op) → S.Ans op}
    {allowed' : T.Op → Prop} {p : Program S ε α} (hp : p.Calls fun op => allowed' (f op)) :
    (p.mapOps f back).Calls allowed' := by
  induction p with
  | done a => trivial
  | fail x => trivial
  | call op next ih => exact ⟨hp.1, fun r => ih _ (hp.2 _)⟩

/-- Surroundings that answer from a part of a larger state, as that part alone would. -/
theorem run_project {ρ τ' : Type} {h : Handler S σ τ} {h' : Handler S ρ τ'} (get : ρ → σ)
    (hh : ∀ op r, (h' op r).1 = (h op (get r)).1 ∧ get (h' op r).2.1 = (h op (get r)).2.1)
    (p : Program S ε α) (r : ρ) :
    (p.run h' r).result = (p.run h (get r)).result ∧
      get (p.run h' r).state = (p.run h (get r)).state := by
  induction p generalizing r with
  | done a => exact ⟨rfl, rfl⟩
  | fail x => exact ⟨rfl, rfl⟩
  | call op next ih =>
    obtain ⟨hans, hstate⟩ := hh op r
    simp only [run_call, Outcome.after_result, Outcome.after_state]
    rw [hans, ← hstate]
    exact ih _ _

/-- The value of a fallible computation, or its exception raised in the program. -/
def ofExcept : Except ε α → Program S ε α
  | .ok a => .done a
  | .error x => .fail x

@[simp] theorem run_ofExcept {h : Handler S σ τ} (x : Except ε α) (s : σ) :
    (ofExcept x : Program S ε α).run h s = ⟨x, s, []⟩ := by
  cases x <;> rfl

theorem calls_ofExcept (x : Except ε α) : (ofExcept x : Program S ε α).Calls allowed := by
  cases x <;> trivial

end Program
end MowerRover.Effects
