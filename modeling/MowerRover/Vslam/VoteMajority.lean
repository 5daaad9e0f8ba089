import MowerRover.Vslam.SourceSwitch

/-!
# What a switch to VSLAM takes

Above zero the counter never gains more than the votes give it. It reaches the
threshold only with a majority: from the last time it was not above zero, the
ticks that favour VSLAM are that many more than those that favour GPS.
-/

namespace MowerRover.Vslam.SourceSwitch

/-- GPS is bad and external navigation is good. -/
def favoursVslam (r : Reading) : Bool := gpsBad r && !extnavBad r

def favoursGps (r : Reading) : Bool := !gpsBad r

theorem vote_eq (r : Reading) :
    vote r = (if favoursVslam r = true then 1 else 0) - if favoursGps r = true then 1 else 0 := by
  unfold vote favoursVslam favoursGps
  cases gpsBad r <;> cases extnavBad r <;> rfl

section Votes

variable (inputs : ℕ → Reading)

/-- How many ticks from one on, and before another, read something of a kind. -/
def ticksWhere (kind : Reading → Bool) (since stop : ℕ) : ℕ :=
  ((Finset.Ico since stop).filter fun tick => kind (inputs tick) = true).card

theorem sum_vote_eq (since stop : ℕ) : ∑ tick ∈ Finset.Ico since stop, vote (inputs tick) =
    ticksWhere inputs favoursVslam since stop - ticksWhere inputs favoursGps since stop := by
  simp only [vote_eq, Finset.sum_sub_distrib, ticksWhere, Finset.card_filter]
  push_cast
  rfl

variable {inputs} {since tick : ℕ}

theorem votes_succ_le (hpositive : 0 < votes inputs (tick + 1)) :
    votes inputs (tick + 1) ≤ votes inputs tick + vote (inputs tick) := by
  rw [votes_succ] at hpositive ⊢
  rcases vote_cases (inputs tick) with hv | hv | hv <;> simp [hv] at hpositive ⊢
  omega

theorem votes_le_sum (hle : since ≤ tick)
    (hpositive : ∀ k, since < k → k ≤ tick → 0 < votes inputs k) :
    votes inputs tick ≤ votes inputs since + ∑ k ∈ Finset.Ico since tick, vote (inputs k) := by
  induction tick, hle using Nat.le_induction with
  | base => simp
  | succ tick hle ih =>
    have hbefore := ih fun k hk hkt => hpositive k hk (by omega)
    have hstep := votes_succ_le (hpositive (tick + 1) (by omega) le_rfl)
    rw [Finset.sum_Ico_succ_top hle]
    omega

theorem exists_last_nonpos (inputs : ℕ → Reading) (tick : ℕ) : ∃ since ≤ tick,
    votes inputs since ≤ 0 ∧ ∀ k, since < k → k ≤ tick → 0 < votes inputs k := by
  induction tick with
  | zero => exact ⟨0, le_rfl, by simp, by omega⟩
  | succ tick ih =>
    rcases lt_or_ge 0 (votes inputs (tick + 1)) with hpos | hnonpos
    · obtain ⟨since, hle, hsince, hpositive⟩ := ih
      refine ⟨since, by omega, hsince, fun k hk hkt => ?_⟩
      rcases Nat.lt_or_eq_of_le hkt with hlt | rfl
      · exact hpositive k hk (by omega)
      · exact hpos
    · exact ⟨tick + 1, le_rfl, hnonpos, by omega⟩

/-- A tick that brings the counter to the threshold ends a stretch with a majority of as many. -/
theorem majority_of_switch (hafter : votes inputs (tick + 1) = 20) :
    ∃ since ≤ tick, votes inputs since ≤ 0 ∧
      (∀ k, since < k → k ≤ tick → 0 < votes inputs k) ∧
      ticksWhere inputs favoursGps since (tick + 1) + 20 ≤
        ticksWhere inputs favoursVslam since (tick + 1) := by
  obtain ⟨since, hle, hsince, hpositive⟩ := exists_last_nonpos inputs tick
  refine ⟨since, hle, hsince, hpositive, ?_⟩
  have hsum : votes inputs (tick + 1) ≤ votes inputs since +
      ∑ k ∈ Finset.Ico since (tick + 1), vote (inputs k) := by
    apply votes_le_sum (by omega)
    intro k hk hkt
    rcases Nat.lt_or_eq_of_le hkt with hlt | rfl
    · exact hpositive k hk (by omega)
    · omega
  rw [sum_vote_eq] at hsum
  omega

end Votes

/-- After any ticks the counter is within the threshold on both sides and the source is VSLAM
exactly while the counter stands there; a call is made on the ticks that change the source; and a
change to VSLAM takes a majority of the threshold since the counter was last not above zero. -/
theorem vote_invariant (inputs : ℕ → Reading) (tick : ℕ) :
    (-20 ≤ (stateAt inputs tick).voteCounter ∧ (stateAt inputs tick).voteCounter ≤ 20) ∧
    ((stateAt inputs tick).currentSource = .vslam ↔ (stateAt inputs tick).voteCounter = 20) ∧
    ((callAt inputs tick).isSome = true ↔
      (stateAt inputs (tick + 1)).currentSource ≠ (stateAt inputs tick).currentSource) ∧
    ((stateAt inputs tick).currentSource ≠ .vslam →
      (stateAt inputs (tick + 1)).currentSource = .vslam →
      ∃ since ≤ tick, (stateAt inputs since).voteCounter ≤ 0 ∧
        (∀ k, since < k → k ≤ tick → 0 < (stateAt inputs k).voteCounter) ∧
        ticksWhere inputs favoursGps since (tick + 1) + 20 ≤
          ticksWhere inputs favoursVslam since (tick + 1)) := by
  refine ⟨votes_bounds inputs tick, currentSource_iff inputs tick, ?_, ?_⟩
  · exact update_call (stateAt inputs tick) (inputs tick)
  · intro _ hafter
    exact majority_of_switch ((currentSource_iff inputs (tick + 1)).mp hafter)

/-- Two seconds of bad GPS end in a switch. -/
theorem vote_invariant_flickering : ∃ since ≤ 19, (stateAt flickering since).voteCounter ≤ 0 ∧
    (∀ k, since < k → k ≤ 19 → 0 < (stateAt flickering k).voteCounter) ∧
    ticksWhere flickering favoursGps since 20 + 20 ≤ ticksWhere flickering favoursVslam since 20 :=
  (vote_invariant flickering 19).2.2.2 (by decide +kernel) (by decide +kernel)

end MowerRover.Vslam.SourceSwitch
