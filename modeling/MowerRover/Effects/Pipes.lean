import Mathlib.Algebra.BigOperators.Group.Finset.Piecewise
import Mathlib.Logic.Relation
import Mathlib.Tactic

/-!
# A process and its pipes

A process writes its items to several pipes, one after the other, and ends. A
pipe holds a bounded number of items and a write to a full one waits. Some of the
pipes have a reader, which takes what is there and sees the end when the process
has ended and the pipe is empty. Steps of the process and of the readers come in
any order.
-/

namespace MowerRover.Effects

/-- What the process has yet to write, what is in the pipes and what was taken out of them; whether
the process has ended, and which readers have seen it. -/
structure Pipes (ι α : Type) where
  script : List (ι × α)
  inside : ι → List α
  taken : ι → List α
  closed : Bool
  ended : ι → Bool

namespace Pipes

variable {ι α : Type} [DecidableEq ι]

/-- What a script writes to a pipe. -/
def onto (i : ι) (script : List (ι × α)) : List α :=
  (script.filter fun w => w.1 = i).map Prod.snd

theorem onto_cons (i j : ι) (a : α) (script : List (ι × α)) :
    onto i ((j, a) :: script) = (if j = i then [a] else []) ++ onto i script := by
  by_cases h : j = i <;> simp [onto, h]

def start (script : List (ι × α)) : Pipes ι α :=
  ⟨script, fun _ => [], fun _ => [], false, fun _ => false⟩

inductive Step (capacity : ℕ) (readers : Set ι) : Pipes ι α → Pipes ι α → Prop
  | write {p : Pipes ι α} {i : ι} {a : α} {rest : List (ι × α)} :
      p.script = (i, a) :: rest → (p.inside i).length < capacity →
        Step capacity readers p
          { p with script := rest, inside := Function.update p.inside i (p.inside i ++ [a]) }
  | close {p : Pipes ι α} : p.script = [] → p.closed = false →
      Step capacity readers p { p with closed := true }
  | take {p : Pipes ι α} {i : ι} (n : ℕ) : i ∈ readers → 0 < n → n ≤ (p.inside i).length →
      Step capacity readers p
        { p with
          inside := Function.update p.inside i ((p.inside i).drop n)
          taken := Function.update p.taken i (p.taken i ++ (p.inside i).take n) }
  | finish {p : Pipes ι α} {i : ι} : i ∈ readers → p.inside i = [] → p.closed = true →
      p.ended i = false →
        Step capacity readers p { p with ended := Function.update p.ended i true }

variable {capacity : ℕ} {readers : Set ι} {script : List (ι × α)} {p q : Pipes ι α} {i : ι}

/-- What was taken, what is in the pipe and what is yet to be written make up the script. -/
structure Flows (capacity : ℕ) (script : List (ι × α)) (p : Pipes ι α) : Prop where
  whole : ∀ i, p.taken i ++ p.inside i ++ onto i p.script = onto i script
  bounded : ∀ i, (p.inside i).length ≤ capacity
  written : p.closed = true → p.script = []
  emptied : ∀ i, p.ended i = true → p.closed = true ∧ p.inside i = []

theorem flows_start : Flows capacity script (start script) where
  whole _ := rfl
  bounded _ := Nat.zero_le capacity
  written h := absurd h Bool.false_ne_true
  emptied _ h := absurd h Bool.false_ne_true

theorem Flows.step (h : Flows capacity script p) (hstep : Step capacity readers p q) :
    Flows capacity script q := by
  cases hstep with
  | @write i a rest hscript hroom =>
    have hopen : p.closed = false := by
      by_contra hclosed
      have hnil := h.written (Bool.eq_true_of_not_eq_false hclosed)
      rw [hscript] at hnil
      cases hnil
    refine ⟨fun j => ?_, fun j => ?_, fun hclosed => ?_, fun j hj => ?_⟩
    · have hwhole := h.whole j
      rw [hscript, onto_cons] at hwhole
      rw [← hwhole]
      by_cases hij : i = j
      · subst hij
        simp
      · simp [hij, Function.update_of_ne (Ne.symm hij)]
    · by_cases hij : j = i
      · subst hij
        simpa using hroom
      · simpa [hij] using h.bounded j
    · exact absurd (hopen.symm.trans hclosed) Bool.false_ne_true
    · exact absurd (hopen.symm.trans (h.emptied j hj).1) Bool.false_ne_true
  | close hscript hopen =>
    exact ⟨h.whole, h.bounded, fun _ => hscript, fun j hj => ⟨rfl, (h.emptied j hj).2⟩⟩
  | @take i n hread hpos hlen =>
    refine ⟨fun j => ?_, fun j => ?_, h.written, fun j hj => ?_⟩
    · rw [← h.whole j]
      by_cases hij : j = i
      · subst hij
        simp
      · simp [hij]
    · by_cases hij : j = i
      · subst hij
        have hbound := h.bounded j
        simp only [Function.update_self, List.length_drop]
        omega
      · simpa [hij] using h.bounded j
    · obtain ⟨hclosed, hempty⟩ := h.emptied j hj
      refine ⟨hclosed, ?_⟩
      by_cases hij : j = i
      · subst hij
        simp [hempty]
      · simpa [hij] using hempty
  | @finish i hread hempty hclosed hopen =>
    refine ⟨h.whole, h.bounded, h.written, fun j hj => ?_⟩
    by_cases hij : j = i
    · subst hij
      exact ⟨hclosed, hempty⟩
    · exact h.emptied j (by simpa [hij] using hj)

theorem Flows.taken_prefix (h : Flows capacity script p) (i : ι) :
    p.taken i <+: onto i script := by
  refine ⟨p.inside i ++ onto i p.script, ?_⟩
  rw [← List.append_assoc]
  exact h.whole i

theorem Flows.taken_of_ended (h : Flows capacity script p) (hended : p.ended i = true) :
    p.taken i = onto i script := by
  obtain ⟨hclosed, hempty⟩ := h.emptied i hended
  have hwhole := h.whole i
  rw [hempty, h.written hclosed] at hwhole
  simpa [onto] using hwhole

/-- A step takes something out of a pipe only where it has a reader, and no more than is in it. -/
theorem Step.taken (hstep : Step capacity readers p q) (i : ι) :
    q.taken i = p.taken i ∨
      i ∈ readers ∧ (q.taken i).length ≤ (p.taken i).length + (p.inside i).length := by
  cases hstep with
  | write => exact .inl rfl
  | close => exact .inl rfl
  | @take j n hread _ _ =>
    by_cases hij : i = j
    · subst hij
      exact .inr ⟨hread, by simp⟩
    · exact .inl (Function.update_of_ne hij _ _)
  | finish => exact .inl rfl

/-- No step is left only when the process has ended and every reader has seen it, or when the
process waits for room in a pipe that nobody reads. -/
theorem Flows.stuck (h : Flows capacity script p) (hcapacity : 0 < capacity)
    (hstuck : ∀ q, ¬ Step capacity readers p q) :
    (p.closed = true ∧ ∀ i ∈ readers, p.ended i = true) ∨
      ∃ i a rest, i ∉ readers ∧ p.script = (i, a) :: rest ∧ (p.inside i).length = capacity := by
  cases hscript : p.script with
  | cons w rest =>
    obtain ⟨i, a⟩ := w
    have hfull : (p.inside i).length = capacity := by
      by_contra hne
      exact hstuck _ (.write hscript (Nat.lt_of_le_of_ne (h.bounded i) hne))
    refine .inr ⟨i, a, rest, fun hread => ?_, rfl, hfull⟩
    exact hstuck _ (.take 1 hread one_pos (by omega))
  | nil =>
    have hclosed : p.closed = true := by
      by_contra hopen
      exact hstuck _ (.close hscript (Bool.eq_false_of_not_eq_true hopen))
    refine .inl ⟨hclosed, fun i hread => ?_⟩
    by_contra hopen
    cases hinside : p.inside i with
    | nil => exact hstuck _ (.finish hread hinside hclosed (Bool.eq_false_of_not_eq_true hopen))
    | cons a as => exact hstuck _ (.take 1 hread one_pos (by rw [hinside]; simp))

theorem Flows.length_le_of_closed (h : Flows capacity script p) (hclosed : p.closed = true)
    (i : ι) :
    (onto i script).length ≤ (p.taken i).length + capacity := by
  have hwhole := h.whole i
  rw [h.written hclosed] at hwhole
  rw [← hwhole]
  simpa [onto] using h.bounded i

theorem Flows.lt_length_of_waiting (h : Flows capacity script p) {a : α} {rest : List (ι × α)}
    (hscript : p.script = (i, a) :: rest) (hfull : (p.inside i).length = capacity) :
    (p.taken i).length + capacity < (onto i script).length := by
  rw [← h.whole i, hscript, onto_cons, if_pos rfl]
  simp [hfull]

section Measure

variable [Fintype ι]

/-- An item is written and taken; the process ends once, and each reader sees it once. -/
def remaining (p : Pipes ι α) : ℕ :=
  2 * p.script.length + ∑ i, (p.inside i).length + (if p.closed then 0 else 1) +
    ∑ i, if p.ended i then 0 else 1

theorem sum_update {β : Type} (f : ι → β) (g : β → ℕ) (i : ι) (b : β) :
    ∑ j, g (Function.update f i b j) + g (f i) = ∑ j, g (f j) + g b := by
  have hupdate : (fun j => g (Function.update f i b j)) =
      Function.update (fun j => g (f j)) i (g b) := by
    funext j
    by_cases hij : j = i
    · subst hij
      simp
    · simp [hij]
  rw [hupdate, Finset.sum_update_of_mem (Finset.mem_univ i),
    ← Finset.add_sum_erase _ (fun j => g (f j)) (Finset.mem_univ i),
      Finset.sdiff_singleton_eq_erase]
  omega

theorem Step.remaining_lt (hstep : Step capacity readers p q) : q.remaining < p.remaining := by
  cases hstep with
  | @write i a rest hscript hroom =>
    have hsum := sum_update p.inside List.length i (p.inside i ++ [a])
    simp only [remaining, hscript, List.length_cons, List.length_append, List.length_nil] at hsum ⊢
    omega
  | close hscript hopen => simp [remaining, hopen]
  | @take i n hread hpos hlen =>
    have hsum := sum_update p.inside List.length i ((p.inside i).drop n)
    simp only [remaining, List.length_drop] at hsum ⊢
    omega
  | @finish i hread hempty hclosed hopen =>
    have hsum := sum_update p.ended (fun b => if b then 0 else 1) i true
    simp only [remaining, hopen] at hsum ⊢
    simp at hsum
    omega

end Measure

end Pipes

/-- A run along which a number falls has at most that many steps. -/
theorem length_le_of_decreasing {σ : Type} {R : σ → σ → Prop} (remaining : σ → ℕ)
    (hlt : ∀ s t, R s t → remaining t < remaining s) {s : σ} {run : List σ}
    (hrun : (s :: run).IsChain R) : run.length ≤ remaining s := by
  induction run generalizing s with
  | nil => exact Nat.zero_le _
  | cons t run ih =>
    obtain ⟨hstep, hrest⟩ := List.isChain_cons_cons.mp hrun
    have hlength := ih hrest
    have hless := hlt s t hstep
    rw [List.length_cons]
    omega

end MowerRover.Effects
