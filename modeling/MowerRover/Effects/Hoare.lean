import MowerRover.Effects.Program

/-!
# Pre- and postconditions of programs

Assertions speak about the state of the surroundings. A triple has one
postcondition for a normal end and one for an exception, and since every run
ends it is a statement of total correctness.
-/

namespace MowerRover.Effects

variable {S : Signature} {ε α β σ τ : Type}

/-- From `P` the program ends in `Q`, or with an exception in `E`. -/
def Triple (h : Handler S σ τ) (P : σ → Prop) (p : Program S ε α) (Q : α → σ → Prop)
    (E : ε → σ → Prop) : Prop :=
  ∀ s, P s → (∀ a, (p.run h s).result = .ok a → Q a (p.run h s).state) ∧
    ∀ x, (p.run h s).result = .error x → E x (p.run h s).state

/-- The call does not falsify `P`, whatever the surroundings are. -/
def Keeps (h : Handler S σ τ) (P : σ → Prop) (op : S.Op) : Prop := ∀ s, P s → P (h op s).2.1

namespace Triple

variable {h : Handler S σ τ} {P P' : σ → Prop} {Q Q' : α → σ → Prop} {E E' : ε → σ → Prop}

theorem pure {a : α} (hP : ∀ s, P s → Q a s) : Triple h P (Pure.pure a : Program S ε α) Q E := by
  intro s hs
  refine ⟨fun b hb => ?_, fun x hx => by simp at hx⟩
  obtain rfl : a = b := by simpa using hb
  exact hP s hs

theorem throw {x : ε} (hP : ∀ s, P s → E x s) :
    Triple h P (MonadExcept.throw x : Program S ε α) Q E := by
  intro s hs
  refine ⟨fun b hb => by simp at hb, fun y hy => ?_⟩
  obtain rfl : x = y := by simpa using hy
  exact hP s hs

theorem perform {op : S.Op} {Q : S.Ans op → σ → Prop}
    (hP : ∀ s, P s → Q (h op s).1 (h op s).2.1) :
    Triple h P (Program.perform op : Program S ε (S.Ans op)) Q E := by
  intro s hs
  rw [Program.run_perform]
  refine ⟨fun b hb => ?_, fun x hx => by simp at hx⟩
  obtain rfl : (h op s).1 = b := by simpa using hb
  exact hP s hs

theorem bind {p : Program S ε α} {f : α → Program S ε β} {R : β → σ → Prop}
    (hp : Triple h P p Q E) (hf : ∀ a, Triple h (Q a) (f a) R E) : Triple h P (p >>= f) R E := by
  intro s hs
  rw [Program.run_bind]
  obtain ⟨hok, herr⟩ := hp s hs
  cases hr : (p.run h s).result with
  | ok a =>
    rw [Outcome.andThen_ok hr]
    exact hf a _ (hok a hr)
  | error x =>
    rw [Outcome.andThen_error hr]
    refine ⟨fun b hb => by simp at hb, fun y hy => ?_⟩
    obtain rfl : x = y := by simpa using hy
    exact herr x hr

theorem tryCatch {p : Program S ε α} {f : ε → Program S ε α} (hp : Triple h P p Q E)
    (hf : ∀ x, Triple h (E x) (f x) Q E') :
    Triple h P (MonadExcept.tryCatch p f : Program S ε α) Q E' := by
  intro s hs
  obtain ⟨hok, herr⟩ := hp s hs
  rw [Program.run_tryCatch]
  cases hr : (p.run h s).result with
  | ok a =>
    rw [Outcome.orElse_ok hr]
    exact ⟨fun b hb => hok b hb, fun x hx => by simp [hr] at hx⟩
  | error x =>
    rw [Outcome.orElse_error hr]
    exact hf x _ (herr x hr)

theorem ofExcept {x : Except ε α} (hok : ∀ a, x = .ok a → ∀ s, P s → Q a s)
    (herr : ∀ e, x = .error e → ∀ s, P s → E e s) :
    Triple h P (Program.ofExcept x : Program S ε α) Q E := by
  cases x with
  | ok a => exact Triple.pure (hok a rfl)
  | error e => exact Triple.throw (herr e rfl)

theorem assuming {φ : Prop} {p : Program S ε α} (hp : φ → Triple h P p Q E) :
    Triple h (fun s => φ ∧ P s) p Q E := fun s hs => hp hs.1 s hs.2

theorem ofExists {ι : Type} {P : ι → σ → Prop} {p : Program S ε α}
    (hp : ∀ i, Triple h (P i) p Q E) : Triple h (fun s => ∃ i, P i s) p Q E :=
  fun s ⟨i, hs⟩ => hp i s hs

theorem returns {p : Program S ε α} {a : α} (hp : Triple h P p Q E)
    (hr : ∀ s, P s → (p.run h s).result = .ok a) :
    Triple h P p (fun b s => b = a ∧ Q b s) E' := by
  intro s hs
  refine ⟨fun b hb => ⟨?_, (hp s hs).1 b hb⟩, fun x hx => by simp [hr s hs] at hx⟩
  simpa [hr s hs] using hb.symm

theorem conseq {p : Program S ε α} (hp : Triple h P p Q E) (hP : ∀ s, P' s → P s)
    (hQ : ∀ a s, Q a s → Q' a s) (hE : ∀ x s, E x s → E' x s) : Triple h P' p Q' E' := by
  intro s hs
  obtain ⟨hok, herr⟩ := hp s (hP s hs)
  exact ⟨fun a ha => hQ a _ (hok a ha), fun x hx => hE x _ (herr x hx)⟩

theorem and {P' : σ → Prop} {p : Program S ε α} (hp : Triple h P p Q E)
    (hp' : Triple h P' p Q' E') :
    Triple h (fun s => P s ∧ P' s) p (fun a s => Q a s ∧ Q' a s) fun x s => E x s ∧ E' x s :=
  fun s hs => ⟨fun a ha => ⟨(hp s hs.1).1 a ha, (hp' s hs.2).1 a ha⟩,
    fun x hx => ⟨(hp s hs.1).2 x hx, (hp' s hs.2).2 x hx⟩⟩

theorem pre {p : Program S ε α} (hp : Triple h P p Q E) (hP : ∀ s, P' s → P s) :
    Triple h P' p Q E := hp.conseq hP (fun _ _ hs => hs) fun _ _ hs => hs

theorem post {p : Program S ε α} (hp : Triple h P p Q E) (hQ : ∀ a s, Q a s → Q' a s) :
    Triple h P p Q' E := hp.conseq (fun _ hs => hs) hQ fun _ _ hs => hs

theorem onError {p : Program S ε α} (hp : Triple h P p Q E) (hE : ∀ x s, E x s → E' x s) :
    Triple h P p Q E' := hp.conseq (fun _ hs => hs) (fun _ _ hs => hs) hE

theorem neverFails {p : Program S ε α} (hp : Triple h P p Q fun _ _ => False) :
    Triple h P p Q E := hp.onError fun _ _ hs => hs.elim

theorem mapOps {T : Signature} {f : S.Op → T.Op} {back : ∀ op, T.Ans (f op) → S.Ans op}
    {h : Handler T σ τ} {p : Program S ε α}
    (hp : Triple (fun op s => (back op (h (f op) s).1, (h (f op) s).2)) P p Q E) :
    Triple h P (p.mapOps f back) Q E := by
  intro s hs
  rw [Program.run_mapOps]
  exact hp s hs

theorem state {p : Program S ε α} {R : σ → Prop} (hp : Triple h P p (fun _ => R) fun _ => R)
    {s : σ} (hs : P s) : R (p.run h s).state := by
  obtain ⟨hok, herr⟩ := hp s hs
  cases hr : (p.run h s).result with
  | ok a => exact hok a hr
  | error x => exact herr x hr

end Triple

/-- The program keeps `I` on every way out. -/
def Preserves (h : Handler S σ τ) (I : σ → Prop) (p : Program S ε α) : Prop :=
  Triple h I p (fun _ => I) fun _ => I

namespace Preserves

variable {h : Handler S σ τ} {I : σ → Prop}

theorem pure (a : α) : Preserves h I (Pure.pure a : Program S ε α) := Triple.pure fun _ hs => hs

theorem throw (x : ε) : Preserves h I (MonadExcept.throw x : Program S ε α) :=
  Triple.throw fun _ hs => hs

theorem perform {op : S.Op} (hop : Keeps h I op) :
    Preserves h I (Program.perform op : Program S ε (S.Ans op)) := Triple.perform hop

theorem bind {p : Program S ε α} {f : α → Program S ε β} (hp : Preserves h I p)
    (hf : ∀ a, Preserves h I (f a)) : Preserves h I (p >>= f) := Triple.bind hp hf

theorem tryCatch {p : Program S ε α} {f : ε → Program S ε α} (hp : Preserves h I p)
    (hf : ∀ x, Preserves h I (f x)) :
    Preserves h I (MonadExcept.tryCatch p f : Program S ε α) := Triple.tryCatch hp hf

theorem ofExcept (x : Except ε α) : Preserves h I (Program.ofExcept x : Program S ε α) :=
  Triple.ofExcept (fun _ _ _ hs => hs) fun _ _ _ hs => hs

theorem of_calls {A : S.Op → Prop} (hstep : ∀ op, A op → Keeps h I op)
    {p : Program S ε α} (hp : p.Calls A) : Preserves h I p := by
  intro s hs
  have := Program.run_invariant (fun op s ho => hstep op ho s) hp hs
  exact ⟨fun _ _ => this, fun _ _ => this⟩

theorem always (hstep : ∀ op, Keeps h I op) (p : Program S ε α) : Preserves h I p :=
  of_calls (A := fun _ => True) (fun op _ => hstep op) p.calls_true

end Preserves
end MowerRover.Effects
