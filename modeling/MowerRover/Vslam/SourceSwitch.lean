import MowerRover.Numeric.PyFloat
import Mathlib.Algebra.BigOperators.Intervals

/-!
# Automatic switching between GPS and VSLAM

The script on the autopilot that votes, ten times a second, for the source of
position, velocity and yaw. The counter of votes saturates on both sides, and
the source is VSLAM as long as the counter stands at the threshold.
-/

namespace MowerRover.Vslam.SourceSwitch

open Numeric

inductive Source
  | gps
  | vslam
  deriving DecidableEq, Repr

/-- What one tick reads; `none` is Lua's `nil`. -/
structure Reading where
  /-- `SCR_USER2` -/
  gpsThresh : Option PyFloat
  /-- `SCR_USER3` -/
  extnavThresh : Option PyFloat
  gpsSpdacc : Option PyFloat
  /-- vertical component of the velocity innovation -/
  extnavInnov : Option PyFloat
  deriving DecidableEq, Repr

structure Script where
  voteCounter : ℤ
  currentSource : Source
  deriving DecidableEq, Repr

def voteThreshold : ℤ := 20

def start : Script := ⟨0, .gps⟩

/-- The default of both thresholds, a single-precision number. -/
def defaultThresh : PyFloat := .fin (roundTo 24 (3 / 10))

def gpsBad (r : Reading) : Bool :=
  match r.gpsSpdacc with
  | none => true
  | some spdacc => PyFloat.lt (r.gpsThresh.getD defaultThresh) spdacc

def extnavBad (r : Reading) : Bool :=
  match r.extnavInnov with
  | none => true
  | some z => decide (z = .fin 0) || PyFloat.lt (r.extnavThresh.getD defaultThresh) z.abs

/-- The counter after the vote of one tick. -/
def countVote (voteCounter : ℤ) (r : Reading) : ℤ :=
  if gpsBad r && !extnavBad r then min (voteCounter + 1) voteThreshold
  else if !gpsBad r then max (voteCounter - 1) (-voteThreshold)
  else voteCounter

def desired (voteCounter : ℤ) : Source :=
  if voteCounter ≥ voteThreshold then .vslam
  else if voteCounter ≤ -voteThreshold then .gps
  else .gps

/-- One tick, with the call of `set_posvelyaw_source_set` if it makes one. -/
def update (s : Script) (r : Reading) : Script × Option Source :=
  let voteCounter := countVote s.voteCounter r
  let desired := desired voteCounter
  if desired ≠ s.currentSource then (⟨voteCounter, desired⟩, some desired)
  else (⟨voteCounter, s.currentSource⟩, none)

/-- The script after its first ticks. -/
def stateAt (inputs : ℕ → Reading) : ℕ → Script
  | 0 => start
  | tick + 1 => (update (stateAt inputs tick) (inputs tick)).1

def callAt (inputs : ℕ → Reading) (tick : ℕ) : Option Source :=
  (update (stateAt inputs tick) (inputs tick)).2

/-- The vote of a tick: for VSLAM, for GPS or for neither. -/
def vote (r : Reading) : ℤ :=
  if gpsBad r && !extnavBad r then 1
  else if !gpsBad r then -1
  else 0

theorem vote_cases (r : Reading) : vote r = 1 ∨ vote r = -1 ∨ vote r = 0 := by
  unfold vote
  split_ifs <;> simp

theorem countVote_eq (n : ℤ) (r : Reading) :
    countVote n r = if vote r = 1 then min (n + 1) 20
      else if vote r = -1 then max (n - 1) (-20) else n := by
  unfold countVote vote voteThreshold
  split_ifs <;> simp_all

theorem desired_eq_vslam_iff (n : ℤ) : desired n = .vslam ↔ 20 ≤ n := by
  unfold desired voteThreshold
  split_ifs <;> simp_all

theorem update_voteCounter (s : Script) (r : Reading) :
    (update s r).1.voteCounter = countVote s.voteCounter r := by
  simp only [update]
  split_ifs <;> rfl

theorem update_currentSource (s : Script) (r : Reading) :
    (update s r).1.currentSource = desired (countVote s.voteCounter r) := by
  simp only [update]
  split_ifs with h
  · rfl
  · exact (not_not.mp h).symm

theorem update_call (s : Script) (r : Reading) :
    (update s r).2.isSome = true ↔ (update s r).1.currentSource ≠ s.currentSource := by
  simp only [update]
  split_ifs with h
  · simpa using h
  · simp

section Runs

variable (inputs : ℕ → Reading)

def votes (tick : ℕ) : ℤ := (stateAt inputs tick).voteCounter

@[simp] theorem votes_zero : votes inputs 0 = 0 := rfl

theorem votes_succ (tick : ℕ) : votes inputs (tick + 1) =
    if vote (inputs tick) = 1 then min (votes inputs tick + 1) 20
    else if vote (inputs tick) = -1 then max (votes inputs tick - 1) (-20)
    else votes inputs tick := by
  rw [votes, stateAt, update_voteCounter, countVote_eq, votes]

theorem votes_bounds (tick : ℕ) : -20 ≤ votes inputs tick ∧ votes inputs tick ≤ 20 := by
  induction tick with
  | zero => simp
  | succ tick ih =>
    rw [votes_succ]
    split_ifs <;> omega

theorem currentSource_iff (tick : ℕ) :
    (stateAt inputs tick).currentSource = .vslam ↔ votes inputs tick = 20 := by
  cases tick with
  | zero => simp [stateAt, start]
  | succ tick =>
    have hbound := (votes_bounds inputs (tick + 1)).2
    rw [stateAt, update_currentSource, desired_eq_vslam_iff, ← update_voteCounter]
    change 20 ≤ votes inputs (tick + 1) ↔ votes inputs (tick + 1) = 20
    omega

theorem callAt_isSome_iff (tick : ℕ) : (callAt inputs tick).isSome = true ↔
    ¬ (votes inputs (tick + 1) = 20 ↔ votes inputs tick = 20) := by
  have hsource : ∀ a b : Source, a ≠ b ↔ ¬ (a = .vslam ↔ b = .vslam) := by
    intro a b
    cases a <;> cases b <;> simp
  rw [callAt, update_call, ← stateAt, hsource, currentSource_iff, currentSource_iff]

theorem call_cases {tick : ℕ} (h : (callAt inputs tick).isSome = true) :
    (votes inputs tick = 19 ∧ vote (inputs tick) = 1 ∧ votes inputs (tick + 1) = 20) ∨
      (votes inputs tick = 20 ∧ vote (inputs tick) = -1 ∧ votes inputs (tick + 1) = 19) := by
  rw [callAt_isSome_iff, votes_succ] at h
  have hbound := votes_bounds inputs tick
  rw [votes_succ]
  rcases vote_cases (inputs tick) with hv | hv | hv <;> simp only [hv] at h ⊢ <;> simp at h ⊢ <;>
    omega

/-- Two calls with none between them. -/
def Consecutive (i j : ℕ) : Prop :=
  i < j ∧ (callAt inputs i).isSome = true ∧ (callAt inputs j).isSome = true ∧
    ∀ k, i < k → k < j → callAt inputs k = none

/-- Among the first `n` ticks, consecutive calls are at least the threshold apart. -/
def Stabilised (n : ℕ) : Prop :=
  ∀ i j, j < n → Consecutive inputs i j → i + voteThreshold.toNat ≤ j

/-- After the counter has reached the threshold there is no vote for GPS for as many ticks, and
after it has left it the votes for VSLAM are at no point of as many ticks in the majority. -/
def Settled (n : ℕ) : Prop :=
  ∀ i < n,
    (votes inputs i = 19 → vote (inputs i) = 1 →
      ∀ j, i < j → j < i + voteThreshold.toNat → j < n → vote (inputs j) ≠ -1) ∧
    (votes inputs i = 20 → vote (inputs i) = -1 →
      ∀ j, i < j → j < i + voteThreshold.toNat → j < n →
        ∑ k ∈ Finset.Ico (i + 1) (j + 1), vote (inputs k) ≤ 0)

variable {inputs} {i j n : ℕ}

theorem callAt_eq_none_iff (tick : ℕ) : callAt inputs tick = none ↔
    (votes inputs (tick + 1) = 20 ↔ votes inputs tick = 20) := by
  rw [← Option.not_isSome_iff_eq_none, callAt_isSome_iff, not_not]

theorem same_side (hquiet : ∀ k, i < k → k < j → callAt inputs k = none) (m : ℕ)
    (hm : i + 1 + m ≤ j) : votes inputs (i + 1 + m) = 20 ↔ votes inputs (i + 1) = 20 := by
  induction m with
  | zero => rfl
  | succ m ih =>
    have hnone := (callAt_eq_none_iff (i + 1 + m)).mp (hquiet _ (by omega) (by omega))
    exact hnone.trans (ih (by omega))

theorem votes_after_drop (hdrop : votes inputs (i + 1) = 19) (m : ℕ) (hm : m ≤ 20)
    (hbelow : ∀ k < m, votes inputs (i + 1 + k) ≠ 20) :
    votes inputs (i + 1 + m) = 19 + ∑ k ∈ Finset.Ico (i + 1) (i + 1 + m), vote (inputs k) ∧
      (19 - m : ℤ) ≤ votes inputs (i + 1 + m) := by
  induction m with
  | zero => simp [hdrop]
  | succ m ih =>
    obtain ⟨hsum, hlow⟩ := ih (by omega) fun k hk => hbelow k (by omega)
    have hne := hbelow m (by omega)
    have htop := (votes_bounds inputs (i + 1 + m)).2
    rw [← Nat.add_assoc, Finset.sum_Ico_succ_top (by omega), ← add_assoc, ← hsum, votes_succ]
    push_cast
    rcases vote_cases (inputs (i + 1 + m)) with hv | hv | hv <;> rw [hv] <;> simp <;> omega

/-- When calls are far apart, nothing changes sides soon after a call. -/
theorem Stabilised.same_side (h : Stabilised inputs n) (hi : (callAt inputs i).isSome = true)
    (m : ℕ) (hm : m ≤ 19) (hn : i + m < n) :
    votes inputs (i + 1 + m) = 20 ↔ votes inputs (i + 1) = 20 := by
  induction m using Nat.strong_induction_on with
  | _ m ih =>
    obtain rfl | hpos := Nat.eq_zero_or_pos m
    · rfl
    by_contra hdiff
    have hbefore : ∀ k < m, votes inputs (i + 1 + k) = 20 ↔ votes inputs (i + 1) = 20 :=
      fun k hk => ih k hk (by omega) (by omega)
    have hlast := hbefore (m - 1) (by omega)
    rw [show i + 1 + (m - 1) = i + m by omega] at hlast
    have hcall : (callAt inputs (i + m)).isSome = true := by
      rw [callAt_isSome_iff, show i + m + 1 = i + 1 + m by omega, hlast]
      exact hdiff
    have hquiet : ∀ k, i < k → k < i + m → callAt inputs k = none := by
      intro k hik hkm
      have hk := hbefore (k - i - 1) (by omega)
      have hk' := hbefore (k - i) (by omega)
      rw [show i + 1 + (k - i - 1) = k by omega] at hk
      rw [show i + 1 + (k - i) = k + 1 by omega] at hk'
      exact (callAt_eq_none_iff k).mpr (hk'.trans hk.symm)
    have hfar := h i (i + m) hn ⟨by omega, hi, hcall, hquiet⟩
    simp [voteThreshold] at hfar
    omega

/-- Calls far apart leave the counter where each of them found it for as long. -/
theorem Stabilised.settled (h : Stabilised inputs n) : Settled inputs n := by
  intro i hi
  constructor
  · intro hvotes hvote j hij hj hjn hdown
    have hup : votes inputs (i + 1) = 20 := by simp [votes_succ, hvote, hvotes]
    have hcall : (callAt inputs i).isSome = true := by
      rw [callAt_isSome_iff]
      omega
    simp only [voteThreshold, Int.reduceToNat] at hj
    have hbefore := (h.same_side hcall (j - i - 1) (by omega) (by omega)).mpr hup
    have hafter := (h.same_side hcall (j - i) (by omega) (by omega)).mpr hup
    rw [show i + 1 + (j - i - 1) = j by omega] at hbefore
    rw [show i + 1 + (j - i) = j + 1 by omega, votes_succ, hdown, hbefore] at hafter
    simp at hafter
  · intro hvotes hvote j hij hj hjn
    have hdrop : votes inputs (i + 1) = 19 := by simp [votes_succ, hvote, hvotes]
    have hcall : (callAt inputs i).isSome = true := by
      rw [callAt_isSome_iff]
      omega
    simp only [voteThreshold, Int.reduceToNat] at hj
    have hside : ∀ k ≤ j - i, votes inputs (i + 1 + k) ≠ 20 := by
      intro k hk
      rw [Ne, h.same_side hcall k (by omega) (by omega)]
      omega
    have hsum := (votes_after_drop hdrop (j - i) (by omega) fun k hk => hside k (by omega)).1
    have hne := hside (j - i) le_rfl
    have htop := (votes_bounds inputs (i + 1 + (j - i))).2
    rw [show i + 1 + (j - i) = j + 1 by omega] at hsum hne htop
    omega

/-- A counter that settles after each call does not call again too soon. -/
theorem Settled.stabilised (h : Settled inputs n) : Stabilised inputs n := by
  rintro i j hjn ⟨hij, hi, hj, hquiet⟩
  by_contra hnear
  simp only [voteThreshold, Int.reduceToNat] at hnear
  obtain ⟨hup, hdown⟩ := h i (by omega)
  have hside := fun m hm => same_side hquiet m (show i + 1 + m ≤ j from hm)
  have hlast := hside (j - i - 1) (by omega)
  rw [show i + 1 + (j - i - 1) = j by omega] at hlast
  rcases call_cases inputs hi with ⟨hvotes, hvote, hafter⟩ | ⟨hvotes, hvote, hafter⟩
  · rcases call_cases inputs hj with ⟨hbelow, -, -⟩ | ⟨-, hvote', -⟩
    · have := hlast.mpr hafter
      omega
    · exact hup hvotes hvote j hij (by simp [voteThreshold]; omega) hjn hvote'
  · rcases call_cases inputs hj with ⟨-, -, hafter'⟩ | ⟨htop, -, -⟩
    · have hsum := (votes_after_drop hafter (j - i) (by omega) fun k hk => by
        rw [Ne, hside k (by omega)]
        omega).1
      rw [show i + 1 + (j - i) = j + 1 by omega, hafter'] at hsum
      have := hdown hvotes hvote j hij (by simp [voteThreshold]; omega) hjn
      omega
    · have := hlast.mp htop
      omega

end Runs

/-- Consecutive calls are as far apart as the threshold says exactly when the inputs let the
counter settle after each of them. -/
theorem stabilised_iff (inputs : ℕ → Reading) (n : ℕ) :
    Stabilised inputs n ↔ Settled inputs n := by
  constructor
  · intro h
    exact h.settled
  · intro h
    exact h.stabilised

/-- Two seconds of bad GPS, and then GPS good and bad again. -/
def flickering (tick : ℕ) : Reading where
  gpsThresh := some (.fin (1 / 2))
  extnavThresh := some (.fin (1 / 2))
  gpsSpdacc := some (if tick = 20 then .fin (1 / 10) else .fin 1)
  extnavInnov := some (.fin (1 / 10))

/-- The source changes on three ticks in a row. -/
theorem update_flickers :
    callAt flickering 19 = some .vslam ∧ callAt flickering 20 = some .gps ∧
      callAt flickering 21 = some .vslam ∧ ¬ ∀ n, Stabilised flickering n := by
  have h19 : callAt flickering 19 = some .vslam := by decide +kernel
  have h20 : callAt flickering 20 = some .gps := by decide +kernel
  refine ⟨h19, h20, by decide +kernel, fun h => ?_⟩
  have hfar := h 21 19 20 (by omega) ⟨by omega, by simp [h19], by simp [h20], by omega⟩
  simp [voteThreshold] at hfar

end MowerRover.Vslam.SourceSwitch
