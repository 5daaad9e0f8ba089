import MowerRover.Effects.Program

/-!
# Scheduled surroundings

The surroundings move by themselves between two calls of the program. A
schedule says, call by call, which moves those are and how large a budget a
clock read at that call grants; once it is used up nothing moves any more.
Quantifying over schedules is quantifying over interleavings.
-/

namespace MowerRover.Effects

/-- What happens before the next call, and the budget granted to that call. -/
structure Turn (μ : Type) where
  moves : List μ
  budget : ℕ
  deriving DecidableEq, Repr

/-- Surroundings together with the rest of their schedule. -/
structure Scheduled (μ σ : Type) where
  state : σ
  turns : List (Turn μ)

variable {S : Signature} {ε α β μ σ τ : Type}

def applyMoves (move : μ → σ → σ × List τ) : List μ → σ → σ × List τ
  | [], s => (s, [])
  | m :: ms, s =>
    let one := move m s
    let rest := applyMoves move ms one.1
    (rest.1, one.2 ++ rest.2)

/-- The moves of the next turn, then the call itself. -/
def schedule (move : μ → σ → σ × List τ) (base : ℕ → Handler S σ τ) :
    Handler S (Scheduled μ σ) τ := fun op s =>
  let turn := s.turns.headD ⟨[], 0⟩
  let moved := applyMoves move turn.moves s.state
  let answer := base turn.budget op moved.1
  (answer.1, ⟨answer.2.1, s.turns.tail⟩, moved.2 ++ answer.2.2)

theorem applyMoves_history {move : μ → σ → σ × List τ} {I : List τ → σ → Prop}
    (hmove : ∀ m ev s, I ev s → I (ev ++ (move m s).2) (move m s).1) (ms : List μ)
    (ev : List τ) (s : σ) (hs : I ev s) :
    I (ev ++ (applyMoves move ms s).2) (applyMoves move ms s).1 := by
  induction ms generalizing ev s with
  | nil => simpa [applyMoves] using hs
  | cons m ms ih =>
    have := ih _ _ (hmove m ev s hs)
    simpa [applyMoves] using this

/-- What every move and every allowed call keep true, every run keeps true under
every schedule. -/
theorem run_schedule_history {move : μ → σ → σ × List τ} {base : ℕ → Handler S σ τ}
    {allowed : S.Op → Prop} {I : List τ → σ → Prop}
    (hmove : ∀ m ev s, I ev s → I (ev ++ (move m s).2) (move m s).1)
    (hbase : ∀ budget op ev s, allowed op → I ev s →
      I (ev ++ (base budget op s).2.2) (base budget op s).2.1)
    {p : Program S ε α} (hp : p.Calls allowed) (ev : List τ) (s : Scheduled μ σ)
    (hs : I ev s.state) :
    I (ev ++ (p.run (schedule move base) s).events)
      (p.run (schedule move base) s).state.state := by
  refine Program.run_history (I := fun ev (s : Scheduled μ σ) => I ev s.state) ?_ hp ev s hs
  intro op ev s ho hs
  have := hbase (s.turns.headD ⟨[], 0⟩).budget op _ _ ho
    (applyMoves_history hmove (s.turns.headD ⟨[], 0⟩).moves ev s.state hs)
  simpa [schedule] using this

end MowerRover.Effects
