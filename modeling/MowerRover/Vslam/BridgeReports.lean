import Mathlib.Data.List.Destutter
import MowerRover.Effects.Periodic
import MowerRover.Vslam.Bridge

/-!
# What the bridge reports

Beside the poses the bridge sends a text when the tracking is lost or recovered,
and a heartbeat about once a second, with which it also sends its health and
feeds the watchdog of systemd. All of it hangs on the poses that come in.
-/

namespace MowerRover.Vslam

open Effects Numeric

/-- Whether a text says that tracking is recovered or lost. -/
def Sent.tracking? : Sent → Option Bool
  | .statustext text =>
    if text = "VSLAM tracking recovered" then some true
    else if text = "VSLAM tracking lost" then some false
    else none
  | _ => none

def trackingTexts (run : List (List Sent)) : List Bool := run.flatten.filterMap Sent.tracking?

/-- A pose with any confidence at all. -/
def Round.tracks (r : Round) : Bool := r.message.confidence ≠ 0

theorem confidenceText_other {last confidence : ℤ} (hlost : ¬(confidence = 0 ∧ last > 0))
    (hrecovered : ¬(confidence > 0 ∧ last = 0)) :
    confidenceText last confidence ≠ "VSLAM tracking recovered" ∧
      confidenceText last confidence ≠ "VSLAM tracking lost" := by
  rw [confidenceText, if_neg hrecovered, if_neg hlost]
  have hsixth : (s!"VSLAM conf {last}->{confidence}").toList[6]? = some 'c' := by
    simp only [String.toList_append, List.append_assoc]
    rfl
  constructor <;> intro h <;> rw [h] at hsixth <;> exact absurd hsixth (by decide)

section Forward

variable {build : MavBuild} {st : BridgeState} {msg : PoseMessage} {now : ℚ}

@[simp] theorem trackReset_lastConfidence : (trackReset st msg).lastConfidence =
    st.lastConfidence := by
  unfold trackReset
  split <;> rfl

@[simp] theorem trackReset_lastHeartbeat : (trackReset st msg).lastHeartbeat =
    st.lastHeartbeat := by
  unfold trackReset
  split <;> rfl

@[simp] theorem forward_lastConfidence :
    (forward build st msg now).1.lastConfidence = msg.confidence := rfl

theorem forward_lastHeartbeat : (forward build st msg now).1.lastHeartbeat =
    if now - st.lastHeartbeat ≥ 1 then now else st.lastHeartbeat := by
  simp [forward]

/-- The parts of what is sent for a pose. -/
theorem forward_filterMap {β : Type} (f : Sent → Option β)
    (hposition : ∀ usec pose cov rc, f (.visionPosition usec pose cov rc) = none)
    (hspeed : ∀ usec v cov rc, f (.visionSpeed usec v cov rc) = none) :
    (forward build st msg now).2.filterMap f =
      (if st.lastConfidence ≥ 0 ∧ msg.confidence ≠ st.lastConfidence then
        (f (.statustext (confidenceText st.lastConfidence msg.confidence))).toList else []) ++
      if now - st.lastHeartbeat ≥ 1 then (f .heartbeat).toList else [] := by
  have hspeeds : ((differentiateVelocity (trackReset st msg).prevMsg msg).map fun fluVel =>
      sendVisionSpeed build msg.timestampUs (fluToNedVelocity fluVel)
        (trackReset st msg).bridgeResetCounter).toList.filterMap f = [] := by
    cases differentiateVelocity (trackReset st msg).prevMsg msg with
    | none => rfl
    | some v => simp [sendVisionSpeed, hspeed]
  simp only [forward, List.filterMap_append, hspeeds, List.filterMap_cons, sendVisionPosition,
    hposition, trackReset_lastConfidence, trackReset_lastHeartbeat]
  congr 1
  · split
    · cases h : f (.statustext (confidenceText st.lastConfidence msg.confidence)) <;> simp [h]
    · rfl
  · split
    · cases h : f .heartbeat <;> simp [h]
    · rfl

/-- A pose brings such a text when it changes whether there is any confidence. -/
theorem tracking_forward (hlast : 0 ≤ st.lastConfidence) (hconf : 0 ≤ msg.confidence) :
    (forward build st msg now).2.filterMap Sent.tracking? =
      if decide (st.lastConfidence ≠ 0) ≠ decide (msg.confidence ≠ 0) then
        [decide (msg.confidence ≠ 0)] else [] := by
  have hbeat : (if now - st.lastHeartbeat ≥ 1 then (Sent.tracking? .heartbeat).toList else []) =
      [] := by split <;> rfl
  rw [forward_filterMap Sent.tracking? (fun _ _ _ _ => rfl) (fun _ _ _ _ => rfl), hbeat,
    List.append_nil]
  by_cases hrecovered : msg.confidence > 0 ∧ st.lastConfidence = 0
  · have hne : msg.confidence ≠ 0 := by omega
    simp [Sent.tracking?, confidenceText, hrecovered, hne]
  · by_cases hlost : msg.confidence = 0 ∧ st.lastConfidence > 0
    · have hne : st.lastConfidence ≠ 0 := by omega
      simp [Sent.tracking?, confidenceText, hlost, hne, hne.symm, hlast]
    · obtain ⟨hr, hl⟩ := confidenceText_other hlost hrecovered
      have hsame : decide (st.lastConfidence ≠ 0) = decide (msg.confidence ≠ 0) := by
        simp only [decide_eq_decide]
        omega
      simp [Sent.tracking?, hr, hl, hsame]

end Forward

theorem Round.tracks_eq (r : Round) : r.tracks = decide (r.pose.confidence ≠ 0) := by
  simp [tracks, pose, VslamPoseMsg.stored, ← UInt8.toNat_inj]

theorem handled_cons {r : Round} (hr : r.shutdown = false) (rounds : List Round) :
    handled (r :: rounds) = r :: handled rounds := by simp [handled, hr]

/-- From a pose on, the texts are the changes that follow. -/
theorem trackingTexts_bridgeLoop (build : MavBuild) (st : BridgeState) (rounds : List Round)
    (hlast : 0 ≤ st.lastConfidence) :
    ((handled rounds).map Round.tracks).destutter' (· ≠ ·) (decide (st.lastConfidence ≠ 0)) =
      decide (st.lastConfidence ≠ 0) :: trackingTexts (bridgeLoop build st rounds) := by
  induction rounds generalizing st with
  | nil => rfl
  | cons r rounds ih =>
    cases hr : r.shutdown with
    | true => simp [handled, bridgeLoop, hr, trackingTexts]
    | false =>
      have hconf : 0 ≤ r.pose.confidence := Int.natCast_nonneg _
      have hrest := ih (forward build st r.pose r.now).1 hconf
      rw [forward_lastConfidence, ← r.tracks_eq] at hrest
      rw [handled_cons hr, List.map_cons, bridgeLoop, if_neg (by simp [hr]), trackingTexts,
        List.flatten_cons, List.filterMap_append, tracking_forward hlast hconf, ← r.tracks_eq,
        List.destutter'_cons, hrest]
      split
      · rfl
      · rename_i hsame
        rw [not_not.mp hsame]
        exact hrest

/-- The texts on lost and recovered tracking are exactly the changes between poses without and
with confidence: they alternate, and the last one tells how it stands. -/
theorem trackingTexts_runBridge (build : MavBuild) (rounds : List Round) :
    trackingTexts (runBridge build rounds) =
      (((handled rounds).map Round.tracks).destutter (· ≠ ·)).tail := by
  cases rounds with
  | nil => rfl
  | cons r rounds =>
    cases hr : r.shutdown with
    | true => simp [handled, runBridge, bridgeLoop, hr, trackingTexts]
    | false =>
      have hconf : 0 ≤ r.pose.confidence := Int.natCast_nonneg _
      have hrest := trackingTexts_bridgeLoop build (forward build {} r.pose r.now).1 rounds hconf
      rw [forward_lastConfidence, ← r.tracks_eq] at hrest
      have hfirst : (forward build {} r.pose r.now).2.filterMap Sent.tracking? = [] := by
        have hnever : ¬(({} : BridgeState).lastConfidence ≥ 0 ∧
            r.pose.confidence ≠ ({} : BridgeState).lastConfidence) := fun h =>
              absurd h.1 (by decide)
        rw [forward_filterMap Sent.tracking? (fun _ _ _ _ => rfl) (fun _ _ _ _ => rfl),
          if_neg hnever]
        split <;> rfl
      rw [handled_cons hr, List.map_cons, List.destutter_cons', hrest, runBridge, bridgeLoop,
        if_neg (by simp [hr]), trackingTexts, List.flatten_cons, List.filterMap_append, hfirst]
      rfl

def Sent.isHeartbeat : Sent → Bool
  | .heartbeat => true
  | _ => false

/-- The times at which a heartbeat is sent, each that of a pose. -/
def heartbeatTimes (build : MavBuild) (rounds : List Round) : List ℚ :=
  (((handled rounds).zip (runBridge build rounds)).filter fun r => r.2.any Sent.isHeartbeat).map
    fun r => r.1.now

theorem heartbeat_forward {build : MavBuild} {st : BridgeState} {msg : PoseMessage} {now : ℚ} :
    (forward build st msg now).2.any Sent.isHeartbeat = decide (1 ≤ now - st.lastHeartbeat) := by
  rw [Bool.eq_iff_iff, List.any_eq_true, decide_eq_true_iff]
  constructor
  · rintro ⟨sent, hsent, hbeat⟩
    obtain rfl | ⟨v, -, rfl⟩ | ⟨text, rfl, -⟩ | ⟨rfl, hdue⟩ := mem_forward.mp hsent
    · exact absurd hbeat (by simp [sendVisionPosition, Sent.isHeartbeat])
    · exact absurd hbeat (by simp [sendVisionSpeed, Sent.isHeartbeat])
    · exact absurd hbeat (by simp [Sent.isHeartbeat])
    · exact hdue
  · intro hdue
    exact ⟨.heartbeat, mem_forward.mpr (.inr (.inr (.inr ⟨rfl, hdue⟩))), rfl⟩

/-- Heartbeats are acts on the poses. -/
theorem heartbeatTimes_bridgeLoop (build : MavBuild) (st : BridgeState) (rounds : List Round) :
    (((handled rounds).zip (bridgeLoop build st rounds)).filter fun r =>
        r.2.any Sent.isHeartbeat).map (fun r => r.1.now) =
      acts 1 st.lastHeartbeat ((handled rounds).map Round.now) := by
  induction rounds generalizing st with
  | nil => rfl
  | cons r rounds ih =>
    cases hr : r.shutdown with
    | true => simp [handled, hr, acts]
    | false =>
      have hrest := ih (forward build st r.pose r.now).1
      rw [forward_lastHeartbeat] at hrest
      rw [handled_cons hr, bridgeLoop, if_neg (by simp [hr]), List.zip_cons_cons, List.map_cons,
        acts]
      by_cases hdue : 1 ≤ r.now - st.lastHeartbeat
      · rw [if_pos hdue] at hrest ⊢
        rw [List.filter_cons_of_pos (by rw [heartbeat_forward, decide_eq_true hdue]), List.map_cons,
          hrest]
      · rw [if_neg hdue] at hrest ⊢
        rw [List.filter_cons_of_neg (by rw [heartbeat_forward, decide_eq_false hdue]; simp), hrest]

/-- Whatever the clock shows at the first pose, acts on the poses are less than their interval and
the largest distance of two poses apart. -/
theorem acts_chain {d last : ℚ} (readings : List ℚ) (hreadings : Within d readings) :
    (acts 1 last readings).IsChain fun a b => b - a < 1 + d := by
  cases readings with
  | nil => exact .nil
  | cons now later =>
    rw [acts]
    split
    · exact acts_within one_pos (by simp) hreadings
    · rename_i hearly
      exact (acts_within one_pos (not_le.mp hearly) hreadings).tail

/-- Heartbeats, and with them the health of the bridge and the watchdog, are at least a second
apart and come with poses only; a pose finds the last one less than a second old or brings
one. While poses are no more than `d` apart no heartbeat is `1 + d` after the one before. -/
theorem runBridge_heartbeats (build : MavBuild) (rounds : List Round) :
    Spaced 1 (0 :: heartbeatTimes build rounds) ∧
      (heartbeatTimes build rounds).Sublist ((handled rounds).map Round.now) ∧
      ((0 :: (handled rounds).map Round.now).getLast (List.cons_ne_nil _ _) -
        (0 :: heartbeatTimes build rounds).getLast (List.cons_ne_nil _ _) < 1) ∧
      ∀ d, Within d ((handled rounds).map Round.now) →
        (heartbeatTimes build rounds).IsChain fun a b => b - a < 1 + d := by
  have hacts : heartbeatTimes build rounds = acts 1 0 ((handled rounds).map Round.now) :=
    heartbeatTimes_bridgeLoop build {} rounds
  have hstart : (0 : ℚ) - 0 < 1 := by norm_num
  rw [hacts]
  refine ⟨acts_spaced 1 0 _, acts_sublist 1 0 _, ?_, fun d hd => acts_chain _ hd⟩
  rw [getLast_acts]
  exact lastAct_fresh one_pos hstart _

/-- Poses from a thousand seconds after the start of the machine on, less than a second apart. -/
def lateRounds : List Round :=
  [1000, 1000 + 3 / 5, 1001 + 1 / 5, 1001 + 4 / 5, 1002 + 2 / 5].map fun now =>
    ⟨0, originPose, false, now⟩

theorem runBridge_heartbeats_late :
    heartbeatTimes allFields lateRounds = [1000, 1001 + 1 / 5, 1002 + 2 / 5] ∧
      (heartbeatTimes allFields lateRounds).IsChain fun a b => b - a < 1 + 3 / 5 := by
  obtain ⟨-, -, -, hchain⟩ := runBridge_heartbeats allFields lateRounds
  exact ⟨by decide +kernel, hchain (3 / 5) (by decide +kernel)⟩

end MowerRover.Vslam
