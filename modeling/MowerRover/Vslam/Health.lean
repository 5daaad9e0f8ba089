import MowerRover.Effects.Window
import MowerRover.Json.FixedPoint
import MowerRover.Vslam.BridgeReports
import MowerRover.Vslam.HealthListener

/-!
# The health of the bridge, at its source

With every heartbeat the bridge computes its health from the last two hundred
poses. It does so while it handles a pose, so the age it reports is that of a
pose that has just come in.
-/

namespace MowerRover.Vslam

open Effects Json Numeric

/-- `round(x, places)` -/
def pyRound (places : ℕ) : SignedFloat → SignedFloat
  | .fin s q => .nearest s (roundedTo places (SignedFloat.signed s q))
  | x => x

/-- `x * 1000.0` -/
def thousandfold : SignedFloat → SignedFloat
  | .fin s q => .nearest s (SignedFloat.signed s q * 1000)
  | x => x

/-- `_frobenius_norm`; `sum` of Python 3.11 rounds after each of the terms. -/
def frobeniusNorm (covariance : List SignedFloat) : SignedFloat :=
  ((covariance.map fun c => c.mul c).foldl SignedFloat.add (.fin false 0)).sqrt

example : frobeniusNorm [.fin false 3, .fin true 4] = .fin false 5 := by decide +kernel

def poseRateHz (recvTimes : List ℚ) (now windowS : ℚ) : SignedFloat :=
  let cutoff := roundTo 53 (now - windowS)
  let count := recvTimes.countP fun recvT => cutoff ≤ recvT
  if windowS > 0 then .nearest false (count / windowS) else .fin false 0

def computeHealth (recentPoses : List (PoseMessage × ℚ)) (now windowS : ℚ) :
    BridgeHealth :=
  match recentPoses.getLast? with
  | none =>
    { poseRateHz := .fin false 0
      poseAgeMs := .inf false
      confidence := 0
      covarianceNorm := .fin false 0
      bridgeConnected := true
      slamConnected := true }
  | some (latestPose, latestRecv) =>
    { poseRateHz := pyRound 1 (poseRateHz (recentPoses.map Prod.snd) now windowS)
      poseAgeMs := pyRound 1 (thousandfold (.nearest false (now - latestRecv)))
      confidence := latestPose.confidence
      covarianceNorm := pyRound 4 (frobeniusNorm latestPose.covariance)
      bridgeConnected := true
      slamConnected := true }

/-- A round of the bridge, with the time at which its pose was put into the queue. -/
structure QueuedRound where
  round : Round
  recv : ℚ

def QueuedRound.entry (r : QueuedRound) : PoseMessage × ℚ := (r.round.pose, r.recv)

/-- What the loop sends of its health, and when. -/
def healthLoop (build : MavBuild) :
    BridgeState → List (PoseMessage × ℚ) → List QueuedRound → List (ℚ × BridgeHealth)
  | _, _, [] => []
  | st, recentPoses, r :: readings =>
    if r.round.shutdown then []
    else
      let recentPoses := push 200 recentPoses r.entry
      let next := (forward build st r.round.pose r.round.now).1
      (if r.round.now - st.lastHeartbeat ≥ 1 then
        [(r.round.now, computeHealth recentPoses r.round.now 2)] else []) ++
        healthLoop build next recentPoses readings

def runHealth (build : MavBuild) (readings : List QueuedRound) : List (ℚ × BridgeHealth) :=
  healthLoop build {} [] readings

/-- Half a small number is a double and has one decimal. -/
theorem pyRound_half {k : ℕ} (hk : k ≤ 200) :
    pyRound 1 (.nearest false (k / 2)) = .fin false (k / 2) := by
  have hdouble : (SignedFloat.fin false (k / 2)).IsDouble := by
    have hhalf : (k / 2 : ℚ≥0) = k * 2 ^ (-1 : ℤ) := by simp [div_eq_mul_inv]
    rw [hhalf]
    exact ⟨k, -1, by omega, by norm_num, rfl, SignedFloat.lt_of_small (by omega) (by norm_num)⟩
  have hsigned : SignedFloat.signed false (k / 2 : ℚ≥0) = (k / 2 : ℚ) := by
    simp [SignedFloat.signed]
  have hself := SignedFloat.nearest_of_isDouble hdouble
  rw [hsigned] at hself
  have hdecimal : roundedTo 1 (k / 2 : ℚ) = k / 2 := by
    have htenth : (k / 2 : ℚ) * 10 ^ 1 = ((5 * k : ℕ) : ℤ) := by
      push_cast
      ring
    rw [roundedTo, htenth, roundHalfEven_intCast]
    push_cast
    ring
  rw [hself, pyRound, hsigned, hdecimal, hself]

theorem poseRateHz_rtake {recvTimes : List ℚ} (hclock : recvTimes.Pairwise (· ≤ ·)) (now : ℚ) :
    pyRound 1 (poseRateHz (recvTimes.rtake 200) now 2) =
      .fin false
        ((min 200 (recvTimes.countP fun recvT => roundTo 53 (now - 2) ≤ recvT) : ℕ) / 2) := by
  have hlast : recvTimes.Pairwise fun a b => decide (roundTo 53 (now - 2) ≤ a) = true →
      decide (roundTo 53 (now - 2) ≤ b) = true := by
    refine hclock.imp fun {a b} hab ha => ?_
    exact decide_eq_true ((of_decide_eq_true ha).trans hab)
  simp only [poseRateHz, countP_rtake hlast]
  rw [if_pos (by norm_num)]
  exact pyRound_half (Nat.min_le_left _ _)

/-- The readings that are handled. -/
def handledQueued (readings : List QueuedRound) : List QueuedRound :=
  readings.takeWhile fun r => !r.round.shutdown

theorem handledQueued_round (readings : List QueuedRound) :
    (handledQueued readings).map QueuedRound.round = handled (readings.map QueuedRound.round) := by
  induction readings with
  | nil => rfl
  | cons r readings ih =>
    cases hr : r.round.shutdown with
    | true => simp [handledQueued, handled, hr]
    | false =>
      rw [List.map_cons, handled_cons hr, ← ih]
      simp [handledQueued, hr]

theorem handledQueued_cons {r : QueuedRound} (hr : r.round.shutdown = false)
    (readings : List QueuedRound) :
    handledQueued (r :: readings) = r :: handledQueued readings := by
  simp [handledQueued, hr]

theorem healthLoop_times (build : MavBuild) (st : BridgeState)
    (recentPoses : List (PoseMessage × ℚ)) (readings : List QueuedRound) :
    (healthLoop build st recentPoses readings).map Prod.fst =
      acts 1 st.lastHeartbeat ((handledQueued readings).map fun r => r.round.now) := by
  induction readings generalizing st recentPoses with
  | nil => rfl
  | cons r readings ih =>
    cases hr : r.round.shutdown with
    | true => simp [handledQueued, healthLoop, hr, acts]
    | false =>
      rw [handledQueued_cons hr, List.map_cons, acts, healthLoop, if_neg (by simp [hr])]
      simp only [List.map_append, ih, forward_lastHeartbeat]
      by_cases hdue : 1 ≤ r.round.now - st.lastHeartbeat
      · simp [hdue]
      · simp [hdue]

/-- What is sent is computed from the last two hundred poses at the time. -/
theorem mem_healthLoop {build : MavBuild} {st : BridgeState} {before readings : List QueuedRound}
    {recentPoses : List (PoseMessage × ℚ)}
    (hrecent : recentPoses = (before.map QueuedRound.entry).rtake 200) {t : ℚ} {h : BridgeHealth}
    (hmem : (t, h) ∈ healthLoop build st recentPoses readings) :
    ∃ mid r post, handledQueued readings = mid ++ r :: post ∧ t = r.round.now ∧
      h = computeHealth (((before ++ (mid ++ [r])).map QueuedRound.entry).rtake 200)
        r.round.now 2 := by
  induction readings generalizing st before recentPoses with
  | nil => cases hmem
  | cons r readings ih =>
    cases hr : r.round.shutdown with
    | true => simp [healthLoop, hr] at hmem
    | false =>
      rw [healthLoop, if_neg (by simp [hr])] at hmem
      have hnext : push 200 recentPoses r.entry =
          ((before ++ [r]).map QueuedRound.entry).rtake 200 := by
        rw [hrecent, push_rtake, List.map_append, List.map_singleton]
      rcases List.mem_append.mp hmem with hnow | hlater
      · split_ifs at hnow with hdue
        · obtain ⟨ht, hh⟩ := Prod.mk.inj (List.mem_singleton.mp hnow)
          refine ⟨[], r, handledQueued readings, handledQueued_cons hr readings, ht, ?_⟩
          rw [hh, hnext, List.nil_append]
        · cases hnow
      · obtain ⟨mid, r', post, hsplit, ht, hh⟩ := ih hnext hlater
        refine ⟨r :: mid, r', post, ?_, ht, ?_⟩
        · rw [handledQueued_cons hr, hsplit, List.cons_append]
        · rw [hh, List.append_assoc]
          rfl

/-- Each heartbeat of a run brings the health: half the number of the poses of the last two
seconds as the rate, which ends at a hundred, the confidence of the pose that is being handled,
and as the age the time since this pose was put into the queue, however long none came before. -/
theorem runHealth_reports (build : MavBuild) {readings : List QueuedRound}
    (hclock : readings.Pairwise fun a b => a.recv ≤ b.recv) :
    (runHealth build readings).map Prod.fst =
        heartbeatTimes build (readings.map QueuedRound.round) ∧
      ∀ t h, (t, h) ∈ runHealth build readings →
        ∃ before r after, handledQueued readings = before ++ r :: after ∧ t = r.round.now ∧
          h.poseRateHz = .fin false ((min 200 ((before ++ [r]).countP fun p =>
            roundTo 53 (t - 2) ≤ p.recv) : ℕ) / 2) ∧
          h.confidence = r.round.pose.confidence ∧
          h.poseAgeMs = pyRound 1 (thousandfold (.nearest false (t - r.recv))) ∧
          h.covarianceNorm = pyRound 4 (frobeniusNorm r.round.pose.covariance) ∧
          h.bridgeConnected = true ∧ h.slamConnected = true := by
  constructor
  · have hbeats := heartbeatTimes_bridgeLoop build {} (readings.map QueuedRound.round)
    rw [heartbeatTimes, runBridge, hbeats, runHealth, healthLoop_times, ← handledQueued_round,
      List.map_map]
    rfl
  · intro t h hmem
    have hstart : [] = (([] : List QueuedRound).map QueuedRound.entry).rtake 200 :=
      (List.rtake_nil 200).symm
    obtain ⟨before, r, after, hsplit, rfl, hh⟩ := mem_healthLoop hstart hmem
    have hsorted : ((before ++ [r]).map QueuedRound.recv).Pairwise (· ≤ ·) := by
      have hbefore : (before ++ [r]).Sublist readings := by
        have hhandled : before ++ [r] <+: handledQueued readings :=
          ⟨after, by rw [hsplit, List.append_assoc]; rfl⟩
        exact (hhandled.trans (List.takeWhile_prefix _)).sublist
      exact List.pairwise_map.mpr (hclock.sublist hbefore)
    have hlast : (((before ++ [r]).map QueuedRound.entry).rtake 200).getLast? = some r.entry := by
      rw [List.map_append, List.map_singleton]
      exact getLast?_rtake_concat (by norm_num) _ _
    have htimes : (((before ++ [r]).map QueuedRound.entry).rtake 200).map Prod.snd =
        ((before ++ [r]).map QueuedRound.recv).rtake 200 := by
      simp [List.rtake, List.map_drop, Function.comp_def, QueuedRound.entry]
    refine ⟨before, r, after, hsplit, rfl, ?_⟩
    rw [hh, List.nil_append, computeHealth, hlast]
    refine ⟨?_, rfl, rfl, rfl, rfl, rfl⟩
    dsimp only
    rw [htimes, poseRateHz_rtake hsorted, List.countP_map]
    rfl

/-- Two poses, ten seconds apart. -/
def stalledRounds : List QueuedRound :=
  [⟨⟨0, originPose, false, 1⟩, 1⟩, ⟨⟨0, originPose, false, 11⟩, 11⟩]

theorem runHealth_reports_stalled :
    (runHealth allFields stalledRounds).map Prod.fst =
        heartbeatTimes allFields (stalledRounds.map QueuedRound.round) ∧
      ∀ t h, (t, h) ∈ runHealth allFields stalledRounds →
        h.poseAgeMs = .fin false 0 := by
  have hclock : stalledRounds.Pairwise fun a b => a.recv ≤ b.recv := by
    simp [stalledRounds]
  have hreadings : ∀ r ∈ stalledRounds, r.round.now - r.recv = 0 := by
    simp [stalledRounds]
  obtain ⟨htimes, hreports⟩ := runHealth_reports allFields hclock
  refine ⟨htimes, fun t h hmem => ?_⟩
  obtain ⟨before, r, after, hsplit, rfl, -, -, hage, -⟩ := hreports t h hmem
  have hr : r ∈ stalledRounds :=
    (List.takeWhile_prefix _).subset (show r ∈ handledQueued stalledRounds by simp [hsplit])
  have hzero : SignedFloat.nearest false 0 = .fin false 0 := by decide +kernel
  rw [hage, hreadings r hr, hzero]
  decide +kernel

end MowerRover.Vslam
