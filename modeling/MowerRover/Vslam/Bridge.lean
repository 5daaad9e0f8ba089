import MowerRover.Vslam.PoseStream

/-!
# The bridge loop

`run_bridge` takes the poses of the reader one by one, turns them from
forward-left-up to north-east-down and sends them on, with a velocity from the
last two poses, a reset counter of its own, a text on a change of confidence and
a heartbeat once a second. A round is one pose with what the loop asks its
surroundings while it handles it. The connection a pose came over is written
beside it; the loop does not see it.
-/

namespace MowerRover.Vslam

open Numeric

structure Pose6 where
  x : SignedFloat
  y : SignedFloat
  z : SignedFloat
  roll : SignedFloat
  pitch : SignedFloat
  yaw : SignedFloat

def PoseMessage.pose6 (msg : PoseMessage) : Pose6 :=
  ⟨msg.x, msg.y, msg.z, msg.roll, msg.pitch, msg.yaw⟩

structure Velocity where
  x : SignedFloat
  y : SignedFloat
  z : SignedFloat

def fluToNedPose (p : Pose6) : Pose6 :=
  ⟨p.x, p.y.neg, p.z.neg, p.roll, p.pitch.neg, p.yaw.neg⟩

def fluToNedVelocity (v : Velocity) : Velocity := ⟨v.x, v.y.neg, v.z.neg⟩

inductive Sent
  | visionPosition (usec : ℤ) (pose : Pose6) (covariance : Option (List SignedFloat))
      (resetCounter : Option ℤ)
  | visionSpeed (usec : ℤ) (velocity : Velocity) (covariance : Option (List SignedFloat))
      (resetCounter : Option ℤ)
  | statustext (text : String)
  | heartbeat

/-- Which of the extension fields are among the parameters of a send function of pymavlink. -/
structure SendParameters where
  covariance : Bool
  resetCounter : Bool

/-- Newer builds of pymavlink have the fields. -/
structure MavBuild where
  visionPosition : SendParameters
  visionSpeed : SendParameters

def allFields : MavBuild := ⟨⟨true, true⟩, ⟨true, true⟩⟩

def sendVisionPosition (build : MavBuild) (msg : PoseMessage) (ned : Pose6) (resetCounter : ℤ) :
    Sent :=
  .visionPosition msg.timestampUs ned
    (if build.visionPosition.covariance then some msg.covariance else none)
    (if build.visionPosition.resetCounter then some resetCounter else none)

def sendVisionSpeed (build : MavBuild) (timestampUs : ℤ) (nedVel : Velocity) (resetCounter : ℤ) :
    Sent :=
  .visionSpeed timestampUs nedVel
    (if build.visionSpeed.covariance then some (List.replicate 9 (.fin false 0)) else none)
    (if build.visionSpeed.resetCounter then some resetCounter else none)

/-- `(cur.timestamp_us - prev.timestamp_us) / 1_000_000.0`; the integer is made a float first. -/
def dtS (prev cur : PoseMessage) : ℚ :=
  roundTo 53 (roundTo 53 ((cur.timestampUs - prev.timestampUs : ℤ) : ℚ) / 1000000)

def velocityBetween (prev cur : PoseMessage) : Velocity where
  x := (cur.x.sub prev.x).divPos (dtS prev cur)
  y := (cur.y.sub prev.y).divPos (dtS prev cur)
  z := (cur.z.sub prev.z).divPos (dtS prev cur)

def differentiateVelocity (prev : Option PoseMessage) (cur : PoseMessage) : Option Velocity :=
  match prev with
  | none => none
  | some prev => if dtS prev cur ≤ 0 then none else some (velocityBetween prev cur)

def confidenceText (last confidence : ℤ) : String :=
  if confidence > 0 ∧ last = 0 then "VSLAM tracking recovered"
  else if confidence = 0 ∧ last > 0 then "VSLAM tracking lost"
  else s!"VSLAM conf {last}->{confidence}"

structure BridgeState where
  lastHeartbeat : ℚ := 0
  prevMsg : Option PoseMessage := none
  lastResetCounter : ℤ := -1
  bridgeResetCounter : ℤ := 0
  lastConfidence : ℤ := -1

structure Round where
  connection : ℕ
  message : VslamPoseMsg
  shutdown : Bool
  /-- `time.monotonic()` -/
  now : ℚ

def Round.pose (r : Round) : PoseMessage := r.message.stored

/-- What comes in the reader's rounds, each with the number of its connection. -/
def tagged {α : Type} (rounds : List (List α)) : List (ℕ × α) :=
  rounds.zipIdx.flatMap fun round => round.1.map fun a => (round.2, a)

theorem tagged_map_snd {α : Type} (rounds : List (List α)) :
    (tagged rounds).map Prod.snd = rounds.flatten := by
  have hround : ∀ round : List α × ℕ,
      (round.1.map fun a => (round.2, a)).map Prod.snd = round.1 := by simp
  simp only [tagged, List.map_flatMap, hround]
  rw [List.flatMap_def, List.zipIdx_map_fst]

theorem pose_rounds_of_delivers {connections : List Connection} {attempts : List Attempt}
    {complete : List (List VslamPoseMsg)} {rounds : List Round}
    (h : Delivers connections attempts complete)
    (hstart : ∀ c ∈ connections, c.accepted <+: imageOf c.messages)
    (hread : rounds.map (fun r => (r.connection, r.pose)) = tagged (readPoses attempts).1) :
    rounds.map Round.pose = complete.flatten.map VslamPoseMsg.stored := by
  have hposes : rounds.map Round.pose = (readPoses attempts).1.flatten := by
    rw [← tagged_map_snd, ← hread, List.map_map]
    rfl
  rw [hposes, readPoses_of_delivers h hstart, List.map_flatten]

def trackReset (st : BridgeState) (msg : PoseMessage) : BridgeState :=
  if msg.resetCounter ≠ st.lastResetCounter then
    { st with
      bridgeResetCounter :=
        if st.lastResetCounter ≥ 0 then st.bridgeResetCounter + 1 else st.bridgeResetCounter
      lastResetCounter := msg.resetCounter }
  else st

/-- The body of the loop. -/
def forward (build : MavBuild) (st : BridgeState) (msg : PoseMessage) (now : ℚ) :
    BridgeState × List Sent :=
  let st := trackReset st msg
  let nedPose := fluToNedPose msg.pose6
  let position := sendVisionPosition build msg nedPose st.bridgeResetCounter
  let speed := (differentiateVelocity st.prevMsg msg).map fun fluVel =>
    sendVisionSpeed build msg.timestampUs (fluToNedVelocity fluVel) st.bridgeResetCounter
  let text :=
    if st.lastConfidence ≥ 0 ∧ msg.confidence ≠ st.lastConfidence then
      [.statustext (confidenceText st.lastConfidence msg.confidence)]
    else []
  let beat := now - st.lastHeartbeat ≥ 1
  ({ st with
      prevMsg := some msg
      lastConfidence := msg.confidence
      lastHeartbeat := if beat then now else st.lastHeartbeat },
    position :: speed.toList ++ text ++ if beat then [.heartbeat] else [])

/-- The loop over the poses, from a state on: what is sent for each pose. -/
def bridgeLoop (build : MavBuild) : BridgeState → List Round → List (List Sent)
  | _, [] => []
  | st, r :: rounds =>
    if r.shutdown then []
    else
      let step := forward build st r.pose r.now
      step.2 :: bridgeLoop build step.1 rounds

def runBridge (build : MavBuild) (rounds : List Round) : List (List Sent) :=
  bridgeLoop build {} rounds

/-- The rounds the loop handles before it is told to shut down. -/
def handled (rounds : List Round) : List Round := rounds.takeWhile fun r => !r.shutdown

/-- The loop's state before the round with index `i`. -/
def stateAt (build : MavBuild) (rounds : List Round) (i : ℕ) : BridgeState :=
  ((handled rounds).take i).foldl (fun st r => (forward build st r.pose r.now).1) {}

section Forward

variable (build : MavBuild) (st : BridgeState) (msg : PoseMessage) (now : ℚ)

@[simp] theorem trackReset_prevMsg : (trackReset st msg).prevMsg = st.prevMsg := by
  unfold trackReset
  split <;> rfl

@[simp] theorem trackReset_lastResetCounter :
    (trackReset st msg).lastResetCounter = msg.resetCounter := by
  unfold trackReset
  split
  · rfl
  · rename_i h
    exact (not_not.mp h).symm

@[simp] theorem forward_prevMsg : (forward build st msg now).1.prevMsg = some msg := rfl

@[simp] theorem forward_lastResetCounter :
    (forward build st msg now).1.lastResetCounter = msg.resetCounter :=
  trackReset_lastResetCounter st msg

@[simp] theorem forward_bridgeResetCounter :
    (forward build st msg now).1.bridgeResetCounter = (trackReset st msg).bridgeResetCounter := rfl

variable {build st msg now}

/-- What is sent for one pose. -/
theorem mem_forward {sent : Sent} : sent ∈ (forward build st msg now).2 ↔
    sent = sendVisionPosition build msg (fluToNedPose msg.pose6)
      (trackReset st msg).bridgeResetCounter ∨
    (∃ fluVel, differentiateVelocity st.prevMsg msg = some fluVel ∧
      sent = sendVisionSpeed build msg.timestampUs (fluToNedVelocity fluVel)
        (trackReset st msg).bridgeResetCounter) ∨
    (∃ text, sent = .statustext text ∧ st.lastConfidence ≥ 0 ∧
      msg.confidence ≠ st.lastConfidence ∧
      text = confidenceText st.lastConfidence msg.confidence) ∨
    (sent = .heartbeat ∧ now - st.lastHeartbeat ≥ 1) := by
  have hconf : (trackReset st msg).lastConfidence = st.lastConfidence := by
    unfold trackReset
    split <;> rfl
  have hheart : (trackReset st msg).lastHeartbeat = st.lastHeartbeat := by
    unfold trackReset
    split <;> rfl
  simp only [forward, trackReset_prevMsg, hconf, hheart, List.mem_append, List.mem_cons,
    Option.mem_toList, Option.map_eq_some_iff]
  split <;> split <;> grind

/-- A speed is sent when there is an earlier pose with a smaller time. -/
theorem visionSpeed_mem_forward {usec : ℤ} {v : Velocity} {cov : Option (List SignedFloat)}
    {rc : Option ℤ} (h : .visionSpeed usec v cov rc ∈ (forward build st msg now).2) :
    ∃ prev, st.prevMsg = some prev ∧ 0 < dtS prev msg ∧
      v = fluToNedVelocity (velocityBetween prev msg) := by
  obtain h | ⟨fluVel, hvel, h⟩ | ⟨text, h, -⟩ | ⟨h, -⟩ := mem_forward.mp h
  · exact Sent.noConfusion h
  · obtain ⟨-, rfl, -, -⟩ := Sent.visionSpeed.inj h
    match hprev : st.prevMsg with
    | none => simp [differentiateVelocity, hprev] at hvel
    | some prev =>
      by_cases hdt : dtS prev msg ≤ 0
      · simp [differentiateVelocity, hprev, hdt] at hvel
      · refine ⟨prev, rfl, not_le.mp hdt, ?_⟩
        simp only [differentiateVelocity, hprev, if_neg hdt, Option.some.injEq] at hvel
        rw [hvel]
  · exact Sent.noConfusion h
  · exact Sent.noConfusion h

variable (build now) in
theorem exists_visionSpeed_forward {prev : PoseMessage} (hprev : st.prevMsg = some prev)
    (hdt : 0 < dtS prev msg) :
    ∃ usec v cov rc, .visionSpeed usec v cov rc ∈ (forward build st msg now).2 := by
  have hvel : differentiateVelocity st.prevMsg msg = some (velocityBetween prev msg) := by
    simp only [differentiateVelocity, hprev, if_neg (not_le.mpr hdt)]
  exact ⟨_, _, _, _, mem_forward.mpr (.inr (.inl ⟨_, hvel, rfl⟩))⟩

end Forward

theorem dtS_pos {prev cur : PoseMessage} :
    0 < dtS prev cur ↔ prev.timestampUs < cur.timestampUs := by
  constructor
  · intro h
    by_contra hle
    have hdiff : ((cur.timestampUs - prev.timestampUs : ℤ) : ℚ) ≤ 0 := by
      exact_mod_cast (by omega : cur.timestampUs - prev.timestampUs ≤ 0)
    have hsec := div_nonpos_of_nonpos_of_nonneg (roundTo_nonpos (p := 53) hdiff)
      (by norm_num : (0 : ℚ) ≤ 1000000)
    exact absurd h (not_lt.mpr (roundTo_nonpos hsec))
  · intro h
    have hdiff : (0 : ℚ) < ((cur.timestampUs - prev.timestampUs : ℤ) : ℚ) := by
      exact_mod_cast (by omega : 0 < cur.timestampUs - prev.timestampUs)
    exact roundTo_pos (by norm_num) (div_pos (roundTo_pos (by norm_num) hdiff) (by norm_num))

theorem bridgeLoop_getElem? (build : MavBuild) (st : BridgeState) (rounds : List Round) (i : ℕ) :
    (bridgeLoop build st rounds)[i]? = (handled rounds)[i]?.map fun r =>
      (forward build (((handled rounds).take i).foldl
        (fun st r => (forward build st r.pose r.now).1) st) r.pose r.now).2 := by
  induction rounds generalizing st i with
  | nil => rfl
  | cons r rounds ih =>
    cases hr : r.shutdown with
    | true => simp [bridgeLoop, handled, hr]
    | false =>
      cases i with
      | zero => simp [bridgeLoop, handled, hr]
      | succ i => simpa [bridgeLoop, handled, hr] using ih (forward build st r.pose r.now).1 i

theorem runBridge_getElem? (build : MavBuild) (rounds : List Round) (i : ℕ) :
    (runBridge build rounds)[i]? = (handled rounds)[i]?.map fun r =>
      (forward build (stateAt build rounds i) r.pose r.now).2 :=
  bridgeLoop_getElem? build {} rounds i

theorem stateAt_succ {build : MavBuild} {rounds : List Round} {i : ℕ} {r : Round}
    (h : (handled rounds)[i]? = some r) :
    stateAt build rounds (i + 1) = (forward build (stateAt build rounds i) r.pose r.now).1 := by
  rw [stateAt, List.take_add_one, h, List.foldl_append]
  rfl

/-- Every speed sent for a pose is taken from it and the pose before it, both of one
connection and with one reset counter. -/
def OneOrigin (build : MavBuild) (rounds : List Round) : Prop :=
  ∀ (i : ℕ) (sent : List Sent), (runBridge build rounds)[i]? = some sent →
    ∀ usec v cov rc, .visionSpeed usec v cov rc ∈ sent →
      ∃ (j : ℕ) (p q : Round), i = j + 1 ∧ rounds[j]? = some p ∧ rounds[i]? = some q ∧
        v = fluToNedVelocity (velocityBetween p.pose q.pose) ∧
        p.connection = q.connection ∧ p.message.resetCounter = q.message.resetCounter

theorem handled_getElem? {rounds : List Round} {i : ℕ} {r : Round}
    (h : (handled rounds)[i]? = some r) : rounds[i]? = some r := by
  obtain ⟨hi, rfl⟩ := List.getElem?_eq_some_iff.mp h
  have hstart : handled rounds <+: rounds := List.takeWhile_prefix _
  exact List.getElem?_eq_some_iff.mpr ⟨hi.trans_le hstart.length_le, (hstart.getElem hi).symm⟩

theorem Round.timestampUs_lt (p q : Round) :
    p.pose.timestampUs < q.pose.timestampUs ↔
      p.message.timestampUs < q.message.timestampUs := by
  simp [Round.pose, VslamPoseMsg.stored, UInt64.lt_iff_toNat_lt]

/-- Consecutive poses of increasing time come over one connection and with one reset counter. -/
def OriginKept (rounds : List Round) : Prop :=
  ∀ (j : ℕ) (p q : Round), (handled rounds)[j]? = some p → (handled rounds)[j + 1]? = some q →
    p.message.timestampUs < q.message.timestampUs →
      p.connection = q.connection ∧ p.message.resetCounter = q.message.resetCounter

theorem OneOrigin.originKept {build : MavBuild} {rounds : List Round}
    (h : OneOrigin build rounds) : OriginKept rounds := by
  intro j p q hp hq htime
  have hprev : (stateAt build rounds (j + 1)).prevMsg = some p.pose := by
    rw [stateAt_succ hp, forward_prevMsg]
  have hdt : 0 < dtS p.pose q.pose := dtS_pos.mpr ((p.timestampUs_lt q).mpr htime)
  obtain ⟨usec, v, cov, rc, hmem⟩ := exists_visionSpeed_forward build q.now hprev hdt
  have hrun : (runBridge build rounds)[j + 1]? =
      some (forward build (stateAt build rounds (j + 1)) q.pose q.now).2 := by
    rw [runBridge_getElem?, hq, Option.map_some]
  obtain ⟨j', p', q', hj, hp', hq', -, hsame⟩ := h (j + 1) _ hrun usec v cov rc hmem
  obtain rfl : j = j' := by omega
  rw [handled_getElem? hp] at hp'
  rw [handled_getElem? hq] at hq'
  obtain rfl := Option.some.inj hp'
  obtain rfl := Option.some.inj hq'
  exact hsame

theorem OriginKept.oneOrigin {rounds : List Round} (h : OriginKept rounds) (build : MavBuild) :
    OneOrigin build rounds := by
  intro i sent hrun usec v cov rc hmem
  rw [runBridge_getElem?, Option.map_eq_some_iff] at hrun
  obtain ⟨q, hq, rfl⟩ := hrun
  obtain ⟨prev, hprev, hdt, rfl⟩ := visionSpeed_mem_forward hmem
  cases i with
  | zero => simp [stateAt] at hprev
  | succ j =>
    have hlen := (List.getElem?_eq_some_iff.mp hq).1
    obtain ⟨p, hp⟩ : ∃ p, (handled rounds)[j]? = some p :=
      ⟨_, List.getElem?_eq_getElem (by omega)⟩
    rw [stateAt_succ hp, forward_prevMsg] at hprev
    obtain rfl := Option.some.inj hprev
    exact ⟨j, p, q, rfl, handled_getElem? hp, handled_getElem? hq, rfl,
      h j p q hp hq ((p.timestampUs_lt q).mp (dtS_pos.mp hdt))⟩

/-- Velocities stay within one origin in exactly the runs in which it does not change
between two poses of increasing time. -/
theorem runBridge_oneOrigin_iff (build : MavBuild) (rounds : List Round) :
    OneOrigin build rounds ↔ OriginKept rounds :=
  ⟨OneOrigin.originKept, fun h => h.oneOrigin build⟩

/-- Two poses a tenth of a second apart with an odometry reset between them. -/
def resetRounds : List Round :=
  [⟨0, originPose, false, 1⟩,
    ⟨0, { originPose with timestampUs := 100000, x := 0x40A00000, resetCounter := 1 }, false, 2⟩]

theorem runBridge_speed_across_reset : ¬OneOrigin allFields resetRounds := by
  intro h
  exact absurd (h.originKept 0 _ _ rfl rfl (by decide)).2 (by decide)

def Sent.resetCounter? : Sent → Option ℤ
  | .visionPosition _ _ _ rc | .visionSpeed _ _ _ rc => rc
  | .statustext _ | .heartbeat => none

/-- The reset counters passed on for one pose. -/
def resetCounters (sent : List Sent) : List ℤ := sent.filterMap Sent.resetCounter?

/-- The counter is passed on with the position, with the speed, or not at all. -/
theorem mem_resetCounters_forward {build : MavBuild} {st : BridgeState} {msg : PoseMessage}
    {now : ℚ}
    {v : ℤ} : v ∈ resetCounters (forward build st msg now).2 ↔
      (build.visionPosition.resetCounter = true ∨ build.visionSpeed.resetCounter = true ∧
        (differentiateVelocity st.prevMsg msg).isSome) ∧
        v = (forward build st msg now).1.bridgeResetCounter := by
  rw [resetCounters, List.mem_filterMap, forward_bridgeResetCounter]
  constructor
  · rintro ⟨sent, hsent, hv⟩
    obtain rfl | ⟨fluVel, hvel, rfl⟩ | ⟨text, rfl, -⟩ | ⟨rfl, -⟩ := mem_forward.mp hsent
    · obtain ⟨hfield, rfl⟩ : build.visionPosition.resetCounter = true ∧ _ = v := by
        simpa [sendVisionPosition, Sent.resetCounter?] using hv
      exact ⟨.inl hfield, rfl⟩
    · obtain ⟨hfield, rfl⟩ : build.visionSpeed.resetCounter = true ∧ _ = v := by
        simpa [sendVisionSpeed, Sent.resetCounter?] using hv
      exact ⟨.inr ⟨hfield, by simp [hvel]⟩, rfl⟩
    · exact absurd hv (by simp [Sent.resetCounter?])
    · exact absurd hv (by simp [Sent.resetCounter?])
  · rintro ⟨hfield | ⟨hfield, hvel⟩, rfl⟩
    · exact ⟨_, mem_forward.mpr (.inl rfl), by
        simp [sendVisionPosition, Sent.resetCounter?, hfield]⟩
    · obtain ⟨fluVel, hvel⟩ := Option.isSome_iff_exists.mp hvel
      exact ⟨_, mem_forward.mpr (.inr (.inl ⟨fluVel, hvel, rfl⟩)),
        by simp [sendVisionSpeed, Sent.resetCounter?, hfield]⟩

/-- How often a counter differs from the one before it. -/
def resetChanges : List UInt8 → ℕ
  | a :: b :: rest => (if a = b then 0 else 1) + resetChanges (b :: rest)
  | _ => 0

theorem resetChanges_take_le (counters : List UInt8) (i : ℕ) :
    resetChanges (counters.take i) ≤ resetChanges counters := by
  induction counters using resetChanges.induct generalizing i with
  | case1 a b rest ih =>
    match i with
    | 0 => simp [resetChanges]
    | 1 => simp [resetChanges]
    | i + 2 =>
      have := ih (i + 1)
      simp only [List.take_succ_cons, resetChanges] at this ⊢
      omega
  | case2 counters hcounters =>
    match counters, i with
    | [], i => simp
    | [a], 0 => simp [resetChanges]
    | [a], i + 1 => simp
    | a :: b :: rest, i => exact absurd rfl (hcounters a b rest)

theorem trackReset_bridgeResetCounter {st : BridgeState} {a b : Round}
    (hlast : st.lastResetCounter = a.pose.resetCounter) :
    (trackReset st b.pose).bridgeResetCounter = st.bridgeResetCounter +
      if a.message.resetCounter = b.message.resetCounter then 0 else 1 := by
  have hnonneg : 0 ≤ st.lastResetCounter := by
    rw [hlast]
    exact Int.natCast_nonneg _
  have heq : b.pose.resetCounter = st.lastResetCounter ↔
      a.message.resetCounter = b.message.resetCounter := by
    rw [hlast, Round.pose, Round.pose, VslamPoseMsg.stored, VslamPoseMsg.stored]
    simp only [Nat.cast_inj, UInt8.toNat_inj]
    exact eq_comm
  unfold trackReset
  by_cases h : b.pose.resetCounter = st.lastResetCounter
  · rw [if_neg (not_not.mpr h), if_pos (heq.mp h), add_zero]
  · rw [if_pos h, if_neg (mt heq.mpr h)]
    simp [hnonneg]

theorem foldl_bridgeResetCounter (build : MavBuild) (rounds : List Round) (st : BridgeState)
    (a : Round) (hlast : st.lastResetCounter = a.pose.resetCounter) :
    (rounds.foldl (fun st r => (forward build st r.pose r.now).1) st).bridgeResetCounter =
      st.bridgeResetCounter +
        resetChanges (a.message.resetCounter :: rounds.map (·.message.resetCounter)) := by
  induction rounds generalizing st a with
  | nil => simp [resetChanges]
  | cons b rounds ih =>
    rw [List.foldl_cons, ih _ b (forward_lastResetCounter _ _ _ _), forward_bridgeResetCounter,
      trackReset_bridgeResetCounter hlast, List.map_cons, resetChanges]
    split <;> push_cast <;> ring

theorem stateAt_bridgeResetCounter (build : MavBuild) (rounds : List Round) (i : ℕ) :
    (stateAt build rounds i).bridgeResetCounter =
      resetChanges (((handled rounds).map (·.message.resetCounter)).take i) := by
  unfold stateAt
  match handled rounds, i with
  | [], i => simp [resetChanges]
  | a :: rest, 0 => simp [resetChanges]
  | a :: rest, i + 1 =>
    have hstart : (trackReset {} a.pose).bridgeResetCounter = 0 := by
      unfold trackReset
      split <;> rfl
    rw [List.take_succ_cons, List.foldl_cons,
      foldl_bridgeResetCounter build (rest.take i) _ a (forward_lastResetCounter _ _ _ _),
      forward_bridgeResetCounter, hstart, zero_add, List.map_cons, List.take_succ_cons,
      List.map_take]

/-- The counter is passed on with the pose with index `i`: with its position, or with the speed that
is sent when its time is later than that of the pose before it. -/
def PassesOn (build : MavBuild) (rounds : List Round) (i : ℕ) : Prop :=
  build.visionPosition.resetCounter = true ∨ build.visionSpeed.resetCounter = true ∧
    ∃ (j : ℕ) (p q : Round), i = j + 1 ∧ (handled rounds)[j]? = some p ∧
      (handled rounds)[i]? = some q ∧ p.message.timestampUs < q.message.timestampUs

theorem differentiateVelocity_isSome {build : MavBuild} {rounds : List Round} {i : ℕ} {r : Round}
    (h : (handled rounds)[i]? = some r) :
    (differentiateVelocity (stateAt build rounds i).prevMsg r.pose).isSome = true ↔
      ∃ (j : ℕ) (p q : Round), i = j + 1 ∧ (handled rounds)[j]? = some p ∧
        (handled rounds)[i]? = some q ∧ p.message.timestampUs < q.message.timestampUs := by
  cases i with
  | zero =>
    simp [stateAt, differentiateVelocity]
  | succ j =>
    have hlen := (List.getElem?_eq_some_iff.mp h).1
    obtain ⟨p, hp⟩ : ∃ p, (handled rounds)[j]? = some p :=
      ⟨_, List.getElem?_eq_getElem (by omega)⟩
    have htime : (differentiateVelocity (some p.pose) r.pose).isSome = true ↔
        p.message.timestampUs < r.message.timestampUs := by
      rw [← Round.timestampUs_lt, ← dtS_pos, differentiateVelocity]
      split_ifs with hdt
      · simpa using hdt
      · simpa using hdt
    rw [stateAt_succ hp, forward_prevMsg, htime]
    constructor
    · exact fun hlt => ⟨j, p, r, rfl, hp, h, hlt⟩
    · rintro ⟨j', p', q, hj, hp', hq, hlt⟩
      obtain rfl : j = j' := by omega
      obtain rfl := Option.some.inj (hp.symm.trans hp')
      obtain rfl := Option.some.inj (h.symm.trans hq)
      exact hlt

/-- What is passed on for the pose with index `i`. -/
theorem mem_resetCounters_run {build : MavBuild} {rounds : List Round} {i : ℕ} {sent : List Sent}
    {v : ℤ} (h : (runBridge build rounds)[i]? = some sent) :
    v ∈ resetCounters sent ↔
      PassesOn build rounds i ∧ v = (stateAt build rounds (i + 1)).bridgeResetCounter := by
  rw [runBridge_getElem?, Option.map_eq_some_iff] at h
  obtain ⟨r, hr, rfl⟩ := h
  rw [mem_resetCounters_forward, stateAt_succ hr, differentiateVelocity_isSome hr, PassesOn]

/-- The counter passed on fits a byte, and it changes with the incoming one. -/
def CountersFit (build : MavBuild) (rounds : List Round) : Prop :=
  (∀ sent ∈ runBridge build rounds, ∀ v ∈ resetCounters sent, 0 ≤ v ∧ v ≤ 255) ∧
  ∀ (i : ℕ) (a b : List Sent) (p q : Round), (runBridge build rounds)[i]? = some a →
    (runBridge build rounds)[i + 1]? = some b → rounds[i]? = some p → rounds[i + 1]? = some q →
      ∀ v ∈ resetCounters a, ∀ w ∈ resetCounters b,
        (v ≠ w ↔ p.message.resetCounter ≠ q.message.resetCounter)

theorem resetCounters_change {build : MavBuild} {rounds : List Round} {i : ℕ} {p q : Round}
    (hp : (handled rounds)[i]? = some p) (hq : (handled rounds)[i + 1]? = some q) :
    (stateAt build rounds (i + 1)).bridgeResetCounter ≠
        (stateAt build rounds (i + 2)).bridgeResetCounter ↔
      p.message.resetCounter ≠ q.message.resetCounter := by
  have hlast : (stateAt build rounds (i + 1)).lastResetCounter = p.pose.resetCounter := by
    rw [stateAt_succ hp, forward_lastResetCounter]
  rw [stateAt_succ hq, forward_bridgeResetCounter, trackReset_bridgeResetCounter hlast]
  split <;> simp_all

/-- Whenever the counter is passed on, it has changed at most 255 times. -/
def ChangesFit (build : MavBuild) (rounds : List Round) : Prop :=
  ∀ i < (handled rounds).length, PassesOn build rounds i →
    resetChanges (((handled rounds).map (·.message.resetCounter)).take (i + 1)) ≤ 255

theorem CountersFit.changes_le {build : MavBuild} {rounds : List Round}
    (h : CountersFit build rounds) : ChangesFit build rounds := by
  intro i hi hpasses
  have hsent : (runBridge build rounds)[i]? =
      some (forward build (stateAt build rounds i) (handled rounds)[i].pose
        (handled rounds)[i].now).2 := by
    rw [runBridge_getElem?, List.getElem?_eq_getElem hi, Option.map_some]
  have hmem := (mem_resetCounters_run hsent).mpr ⟨hpasses, rfl⟩
  have hle := (h.1 _ (List.mem_of_getElem? hsent) _ hmem).2
  rw [stateAt_bridgeResetCounter] at hle
  exact_mod_cast hle

theorem countersFit_of_changes_le {build : MavBuild} {rounds : List Round}
    (h : ChangesFit build rounds) : CountersFit build rounds := by
  constructor
  · intro sent hsent v hv
    obtain ⟨i, hi⟩ := List.mem_iff_getElem?.mp hsent
    obtain ⟨hpasses, rfl⟩ := (mem_resetCounters_run hi).mp hv
    have hlt : i < (handled rounds).length := by
      rw [runBridge_getElem?, Option.map_eq_some_iff] at hi
      obtain ⟨r, hr, -⟩ := hi
      exact (List.getElem?_eq_some_iff.mp hr).1
    have hle := h i hlt hpasses
    rw [stateAt_bridgeResetCounter]
    omega
  · intro i a b p q ha hb hp hq v hv w hw
    obtain ⟨-, rfl⟩ := (mem_resetCounters_run ha).mp hv
    obtain ⟨-, rfl⟩ := (mem_resetCounters_run hb).mp hw
    rw [runBridge_getElem?, Option.map_eq_some_iff] at ha hb
    obtain ⟨p', hp', -⟩ := ha
    obtain ⟨q', hq', -⟩ := hb
    obtain rfl := Option.some.inj ((handled_getElem? hp').symm.trans hp)
    obtain rfl := Option.some.inj ((handled_getElem? hq').symm.trans hq)
    exact resetCounters_change hp' hq'

theorem changesFit_iff_of_position {build : MavBuild} {rounds : List Round}
    (hfield : build.visionPosition.resetCounter = true) : ChangesFit build rounds ↔
      resetChanges ((handled rounds).map (·.message.resetCounter)) ≤ 255 := by
  constructor
  · intro h
    match hn : (handled rounds).length with
    | 0 => simp [List.length_eq_zero_iff.mp hn, resetChanges]
    | n + 1 =>
      have hlast := h n (by omega) (.inl hfield)
      rwa [List.take_of_length_le (by simp [hn])] at hlast
  · intro h i _ _
    exact (resetChanges_take_le _ _).trans h

/-- The counters fit in exactly the runs in which there are at most 255 changes before each time
one is passed on. -/
theorem runBridge_resetCounters_iff (build : MavBuild) (rounds : List Round) :
    CountersFit build rounds ↔ ChangesFit build rounds :=
  ⟨CountersFit.changes_le, countersFit_of_changes_le⟩

/-- A pose for every value of the node's counter, and one after it has wrapped. -/
def wrappingRounds : List Round :=
  (List.range 257).map fun k => ⟨0, { originPose with resetCounter := UInt8.ofNat k }, false, 0⟩

theorem runBridge_counter_overflow : ¬CountersFit allFields wrappingRounds := by
  intro h
  have hmany : ¬resetChanges ((handled wrappingRounds).map (·.message.resetCounter)) ≤ 255 := by
    decide +kernel
  exact hmany ((changesFit_iff_of_position rfl).mp h.changes_le)

end MowerRover.Vslam
