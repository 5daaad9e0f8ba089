import MowerRover.Effects.Periodic
import MowerRover.Vslam.Bridge
import MowerRover.Vslam.SlamConfig

/-!
# The loop of the SLAM node

Each pass of `run_slam_loop` takes in a client, looks for a pair of frames and
hands it to the odometry. A lost odometry is reset and counted. A pose is sent
when the last one is long enough ago, and the watchdog of systemd is fed from
the passes that send one. Times of the steady clock are in nanoseconds.
-/

namespace MowerRover.Vslam

open Effects

/-- What the odometry makes of a pair of frames. -/
inductive OdometryAnswer
  | null (lost : Bool)
  | pose (t : Transform) (covariance : CvMat) (inliers : ℤ)

/-- What the queue of one camera has: no frame, or a frame with or without an image. -/
structure ImgFrame where
  empty : Bool

/-- A pass, with what it asks its surroundings. -/
structure Pass where
  clientWaiting : Bool
  left : Option ImgFrame
  right : Option ImgFrame
  odometry : OdometryAnswer
  now : ℤ
  /-- `system_clock::now()`, for the time stamp of the message -/
  nowUs : UInt64
  /-- the answer of `write` -/
  written : Option (Fin 119)

structure LoopState where
  srv : SocketServer
  resetCounter : UInt8
  lastPoseTime : ℤ
  lastWatchdog : ℤ
  frameCount : UInt64

inductive NodeEvent
  | odometryReset (count : UInt8)
  | pose (now : ℤ) (msg : VslamPoseMsg)
  | frames (count : UInt64) (confidence resets : UInt8)
  | watchdog (now : ℤ)

/-- `1000000 / cfg.pose_output_rate_hz` microseconds; a rate of zero ends the node. -/
def poseInterval (cfg : SlamConfig) : Option ℤ :=
  if cfg.poseOutputRateHz = 0 then none
  else some ((1000000 : ℤ).tdiv cfg.poseOutputRateHz * 1000)

def watchdogInterval : ℤ := 15 * 1000000000

/-- `WatchdogSec=30` of the node's unit. -/
def watchdogSec : ℤ := 30 * 1000000000

def poseConfidence (inliers : ℤ) : UInt8 :=
  if inliers > 0 then UInt8.ofNat (min 100 inliers).toNat else 0

/-- From the rate limit of the poses on. -/
def outputPose (interval : ℤ) (st : LoopState) (p : Pass) (t : Transform) (covariance : CvMat)
    (inliers : ℤ) : LoopState × List NodeEvent :=
  if p.now - st.lastPoseTime < interval then (st, [])
  else
    let msg := transformToPoseMsg p.nowUs t covariance (poseConfidence inliers) st.resetCounter
    let st := { st with
      lastPoseTime := p.now, srv := (st.srv.socketSendPose msg p.written).2 }
    let logged := if st.frameCount % 100 = 0 then
        [.frames st.frameCount msg.confidence msg.resetCounter] else []
    if watchdogInterval ≤ p.now - st.lastWatchdog then
      ({ st with lastWatchdog := p.now }, .pose p.now msg :: logged ++ [.watchdog p.now])
    else (st, .pose p.now msg :: logged)

/-- From the answer of the odometry on. -/
def track (interval : ℤ) (st : LoopState) (p : Pass) : LoopState × List NodeEvent :=
  match p.odometry with
  | .null lost =>
    if lost then
      ({ st with resetCounter := st.resetCounter + 1 }, [.odometryReset (st.resetCounter + 1)])
    else (st, [])
  | .pose t covariance inliers => outputPose interval st p t covariance inliers

/-- The body of the loop. -/
def slamPass (interval : ℤ) (st : LoopState) (p : Pass) : LoopState × List NodeEvent :=
  let st := if p.clientWaiting then { st with srv := st.srv.socketAcceptNonblock } else st
  match p.left, p.right with
  | some left, some right =>
    if left.empty || right.empty then (st, [])
    else track interval { st with frameCount := st.frameCount + 1 } p
  | _, _ => (st, [])

/-- The passes until the node is told to shut down. -/
def slamLoop (interval : ℤ) : LoopState → List Pass → LoopState × List NodeEvent
  | st, [] => (st, [])
  | st, p :: passes =>
    let step := slamPass interval st p
    let rest := slamLoop interval step.1 passes
    (rest.1, step.2 ++ rest.2)

/-- `run_slam_loop` of a node that has just started: the two clock readings before the
loop, then the passes. -/
def runSlamLoop (cfg : SlamConfig) (poseTime watchdogTime : ℤ) (passes : List Pass) :
    Option (LoopState × List NodeEvent) :=
  (poseInterval cfg).map fun interval =>
    slamLoop interval ⟨⟨none, []⟩, 0, poseTime, watchdogTime, 0⟩ passes

/-- A pass has a pose when both images are there and the odometry is not lost. -/
def Pass.tracked (p : Pass) : Bool :=
  match p.left, p.right, p.odometry with
  | some left, some right, .pose _ _ _ => !(left.empty || right.empty)
  | _, _, _ => false

def trackedTimes (passes : List Pass) : List ℤ := (passes.filter Pass.tracked).map Pass.now

def NodeEvent.poseTime? : NodeEvent → Option ℤ
  | .pose now _ => some now
  | _ => none

def NodeEvent.watchdogTime? : NodeEvent → Option ℤ
  | .watchdog now => some now
  | _ => none

def poseTimes (events : List NodeEvent) : List ℤ := events.filterMap NodeEvent.poseTime?

def watchdogTimes (events : List NodeEvent) : List ℤ := events.filterMap NodeEvent.watchdogTime?

/-- What a pass can do to the loop: take in a client, and then nothing more than counting
the frame, or count a lost odometry, or send a pose. -/
inductive PassStep (interval : ℤ) (st : LoopState) (p : Pass) : LoopState × List NodeEvent → Prop
  | idle (srv : SocketServer) (frames : UInt64)
      (hsrv : srv = st.srv ∨ srv = st.srv.socketAcceptNonblock)
      (hlate : p.tracked = true → p.now - st.lastPoseTime < interval) :
      PassStep interval st p ({ st with srv := srv, frameCount := frames }, [])
  | lost (srv : SocketServer) (frames : UInt64)
      (hsrv : srv = st.srv ∨ srv = st.srv.socketAcceptNonblock) (hlost : p.tracked = false) :
      PassStep interval st p
        ({ st with srv := srv, frameCount := frames, resetCounter := st.resetCounter + 1 },
          [.odometryReset (st.resetCounter + 1)])
  | sent (srv : SocketServer) (frames : UInt64) (msg : VslamPoseMsg) (logged : List NodeEvent)
      (hsrv : srv = st.srv ∨ srv = st.srv.socketAcceptNonblock) (htracked : p.tracked = true)
      (hdue : interval ≤ p.now - st.lastPoseTime) (hmsg : msg.resetCounter = st.resetCounter)
      (hlogged : ∀ e ∈ logged, ∃ a b c, e = .frames a b c) :
      PassStep interval st p
        ({ st with
            srv := (srv.socketSendPose msg p.written).2, frameCount := frames
            lastPoseTime := p.now
            lastWatchdog := if watchdogInterval ≤ p.now - st.lastWatchdog then p.now
              else st.lastWatchdog },
          .pose p.now msg :: logged ++
            if watchdogInterval ≤ p.now - st.lastWatchdog then [.watchdog p.now] else [])

theorem slamPass_step (interval : ℤ) (st : LoopState) (p : Pass) :
    PassStep interval st p (slamPass interval st p) := by
  obtain ⟨srv, hsrv, hst⟩ : ∃ srv, (srv = st.srv ∨ srv = st.srv.socketAcceptNonblock) ∧
      (if p.clientWaiting then { st with srv := st.srv.socketAcceptNonblock } else st) =
        { st with srv := srv } := by
    cases p.clientWaiting with
    | true => exact ⟨_, .inr rfl, rfl⟩
    | false => exact ⟨_, .inl rfl, rfl⟩
  have hidle : p.tracked = false → PassStep interval st p ({ st with srv := srv }, []) :=
    fun h => .idle srv st.frameCount hsrv (by simp [h])
  rw [slamPass, hst]
  match hleft : p.left, hright : p.right with
  | none, _ => exact hidle (by simp [Pass.tracked, hleft])
  | some left, none => exact hidle (by simp [Pass.tracked, hleft, hright])
  | some left, some right =>
    simp only
    by_cases hempty : (left.empty || right.empty) = true
    · rw [if_pos hempty]
      refine hidle ?_
      cases hodom : p.odometry <;> simp [Pass.tracked, hleft, hright, hodom, hempty]
    · rw [if_neg hempty, track]
      match hodom : p.odometry with
      | .null lost =>
        have hnot : p.tracked = false := by simp [Pass.tracked, hleft, hright, hodom]
        cases lost with
        | true => exact .lost srv _ hsrv hnot
        | false => exact .idle srv _ hsrv (by simp [hnot])
      | .pose t covariance inliers =>
        have htracked : p.tracked = true := by
          simpa [Pass.tracked, hleft, hright, hodom] using hempty
        simp only [outputPose]
        by_cases hearly : p.now - st.lastPoseTime < interval
        · rw [if_pos hearly]
          exact .idle srv _ hsrv fun _ => hearly
        · rw [if_neg hearly]
          obtain ⟨msg, hmsg⟩ : ∃ msg, transformToPoseMsg p.nowUs t covariance
              (poseConfidence inliers) st.resetCounter = msg := ⟨_, rfl⟩
          have hsent : PassStep interval st p _ := .sent srv (st.frameCount + 1) msg
            (if (st.frameCount + 1) % 100 = 0 then
              [.frames (st.frameCount + 1) msg.confidence msg.resetCounter] else [])
            hsrv htracked (not_lt.mp hearly) (hmsg ▸ rfl) (by grind)
          rw [hmsg]
          split at hsent <;> rename_i hdog
          · simpa only [if_pos hdog] using hsent
          · simpa only [if_neg hdog, List.append_nil] using hsent

@[simp] theorem poseTimes_append (es fs : List NodeEvent) :
    poseTimes (es ++ fs) = poseTimes es ++ poseTimes fs := List.filterMap_append

@[simp] theorem watchdogTimes_append (es fs : List NodeEvent) :
    watchdogTimes (es ++ fs) = watchdogTimes es ++ watchdogTimes fs := List.filterMap_append

theorem times_logged {logged : List NodeEvent} (h : ∀ e ∈ logged, ∃ a b c, e = .frames a b c) :
    poseTimes logged = [] ∧ watchdogTimes logged = [] := by
  constructor
  · refine List.filterMap_eq_nil_iff.mpr fun e he => ?_
    obtain ⟨a, b, c, rfl⟩ := h e he
    rfl
  · refine List.filterMap_eq_nil_iff.mpr fun e he => ?_
    obtain ⟨a, b, c, rfl⟩ := h e he
    rfl

theorem times_sent {logged : List NodeEvent} (now : ℤ) (msg : VslamPoseMsg) (due : Prop)
    [Decidable due] (h : ∀ e ∈ logged, ∃ a b c, e = .frames a b c) :
    poseTimes (.pose now msg :: logged ++ if due then [.watchdog now] else []) = [now] ∧
      watchdogTimes (.pose now msg :: logged ++ if due then [.watchdog now] else []) =
        if due then [now] else [] := by
  obtain ⟨hposes, hdogs⟩ := times_logged h
  have hpose : poseTimes [.pose now msg] = [now] ∧ watchdogTimes [.pose now msg] = [] := ⟨rfl, rfl⟩
  have hdog : poseTimes [.watchdog now] = [] ∧ watchdogTimes [.watchdog now] = [now] := ⟨rfl, rfl⟩
  rw [← List.singleton_append, List.append_assoc]
  simp only [poseTimes_append, watchdogTimes_append, hposes, hdogs, hpose]
  split
  · simp only [hdog]
    exact ⟨rfl, rfl⟩
  · exact ⟨rfl, rfl⟩

/-- In a pass, a pose is an act on the tracked pass, and the watchdog one on the pose. -/
theorem slamPass_times (interval : ℤ) (st : LoopState) (p : Pass) :
    let step := slamPass interval st p
    poseTimes step.2 = acts interval st.lastPoseTime (trackedTimes [p]) ∧
      step.1.lastPoseTime = lastAct interval st.lastPoseTime (trackedTimes [p]) ∧
      watchdogTimes step.2 = acts watchdogInterval st.lastWatchdog (poseTimes step.2) ∧
      step.1.lastWatchdog = lastAct watchdogInterval st.lastWatchdog (poseTimes step.2) := by
  have hstep := slamPass_step interval st p
  generalize slamPass interval st p = step at hstep ⊢
  cases hstep with
  | idle srv frames _ hlate =>
    cases htracked : p.tracked with
    | true =>
      have hearly := not_le.mpr (hlate htracked)
      simp [trackedTimes, htracked, acts, lastAct, hearly, poseTimes, watchdogTimes]
    | false => simp [trackedTimes, htracked, acts, lastAct, poseTimes, watchdogTimes]
  | lost srv frames _ hlost =>
    have hnone : poseTimes [.odometryReset (st.resetCounter + 1)] = [] ∧
        watchdogTimes [.odometryReset (st.resetCounter + 1)] = [] := ⟨rfl, rfl⟩
    simp [trackedTimes, hlost, acts, lastAct, hnone]
  | sent srv frames msg logged _ htracked hdue _ hlogged =>
    obtain ⟨hpose, hdog⟩ := times_sent p.now msg (watchdogInterval ≤ p.now - st.lastWatchdog)
      hlogged
    simp only [hpose, hdog]
    simp [trackedTimes, htracked, acts, lastAct, hdue]

/-- Poses are acts on the tracked passes, and the watchdog is an act on the poses. -/
theorem slamLoop_times (interval : ℤ) (st : LoopState) (passes : List Pass) :
    let run := slamLoop interval st passes
    poseTimes run.2 = acts interval st.lastPoseTime (trackedTimes passes) ∧
      watchdogTimes run.2 = acts watchdogInterval st.lastWatchdog (poseTimes run.2) ∧
      run.1.lastWatchdog = lastAct watchdogInterval st.lastWatchdog (poseTimes run.2) := by
  induction passes generalizing st with
  | nil => exact ⟨rfl, rfl, rfl⟩
  | cons p passes ih =>
    obtain ⟨hpose, hlast, hdog, hfed⟩ := slamPass_times interval st p
    obtain ⟨ihpose, ihdog, ihfed⟩ := ih (slamPass interval st p).1
    have hcons : trackedTimes (p :: passes) = trackedTimes [p] ++ trackedTimes passes := by
      rw [trackedTimes, trackedTimes, trackedTimes, ← List.map_append, ← List.filter_append]
      rfl
    simp only [slamLoop, poseTimes_append, watchdogTimes_append, acts_append, lastAct_append, hcons]
    rw [ihdog, ihfed, ihpose, hlast, hfed, hpose, hdog, hpose]
    exact ⟨rfl, rfl, rfl⟩

theorem runSlamLoop_eq {cfg : SlamConfig} {interval poseTime watchdogTime : ℤ} {passes : List Pass}
    {run : LoopState × List NodeEvent} (hinterval : poseInterval cfg = some interval)
    (hrun : runSlamLoop cfg poseTime watchdogTime passes = some run) :
    run = slamLoop interval ⟨⟨none, []⟩, 0, poseTime, watchdogTime, 0⟩ passes := by
  rw [runSlamLoop, hinterval] at hrun
  exact (Option.some.inj hrun).symm

/-- Poses and watchdogs keep their intervals. The watchdog is fed from tracked passes only; at
each of them it was fed less than its interval and that of the poses ago, and if they come
often enough it is never late. -/
theorem runSlamLoop_paced {cfg : SlamConfig} {interval poseTime watchdogTime : ℤ}
    {passes : List Pass} {run : LoopState × List NodeEvent}
    (hinterval : poseInterval cfg = some interval) (hpos : 0 < interval)
    (hstart : poseTime ≤ watchdogTime)
    (hrun : runSlamLoop cfg poseTime watchdogTime passes = some run) :
    Spaced interval (poseTime :: poseTimes run.2) ∧
      Spaced watchdogInterval (watchdogTime :: watchdogTimes run.2) ∧
      (watchdogTimes run.2).Sublist (trackedTimes passes) ∧
      (poseTime :: trackedTimes passes).getLast (List.cons_ne_nil _ _) - run.1.lastWatchdog
        < interval + watchdogInterval ∧
      ∀ d, Within d (poseTime :: trackedTimes passes) → interval + d ≤ watchdogInterval →
        (watchdogTime :: watchdogTimes run.2).IsChain fun a b => b - a < watchdogSec := by
  obtain rfl := runSlamLoop_eq hinterval hrun
  obtain ⟨hpose, hdog, hfed⟩ := slamLoop_times interval ⟨⟨none, []⟩, 0, poseTime, watchdogTime, 0⟩
    passes
  have hdogpos : 0 < watchdogInterval := by decide
  have hfresh : poseTime - watchdogTime < watchdogInterval := by omega
  refine ⟨?_, ?_, ?_, ?_, ?_⟩
  · rw [hpose]
    exact acts_spaced interval poseTime _
  · rw [hdog]
    exact acts_spaced watchdogInterval watchdogTime _
  · rw [hdog, hpose]
    exact (acts_sublist _ _ _).trans (acts_sublist _ _ _)
  · have hself : poseTime - poseTime < interval := by simpa using hpos
    have htracked := lastAct_fresh hpos hself (trackedTimes passes)
    have hposes := lastAct_fresh hdogpos hfresh (acts interval poseTime (trackedTimes passes))
    rw [getLast_acts] at hposes
    rw [hfed, hpose]
    linarith
  · intro d hd hle
    have hposes : Within (interval + d)
      (poseTime :: acts interval poseTime (trackedTimes passes)) :=
      (acts_within hpos (by simpa using hpos) hd).imp fun a b h => h.le
    rw [hdog, hpose]
    refine (acts_within hdogpos hfresh hposes).imp fun a b h => h.trans_le ?_
    have htwice : watchdogInterval + watchdogInterval = watchdogSec := by decide
    omega

/-- Three frames, eight seconds apart. -/
def slowPasses : List Pass :=
  [8, 16, 24].map fun s =>
    ⟨false, some ⟨false⟩, some ⟨false⟩, .pose ⟨0, 0, 0, 0, 0, 0⟩ ⟨true, 0, 0, fun _ _ => .nan⟩ 40,
      s * 1000000000, 0, none⟩

theorem runSlamLoop_paced_slow : ∃ run, runSlamLoop {} 0 0 slowPasses = some run ∧
    watchdogTimes run.2 = [16000000000] ∧
    (0 :: watchdogTimes run.2).IsChain fun a b => b - a < watchdogSec := by
  have hinterval : poseInterval {} = some 50000000 := by decide
  refine ⟨_, rfl, by rfl, ?_⟩
  exact (runSlamLoop_paced hinterval (by decide) le_rfl rfl).2.2.2.2 8000000000 (by decide)
    (by decide)

def NodeEvent.isReset : NodeEvent → Bool
  | .odometryReset _ => true
  | _ => false

/-- The poses of a run, each with the number of losses of the odometry before it. -/
def countedPoses : ℕ → List NodeEvent → List (VslamPoseMsg × ℕ)
  | _, [] => []
  | n, .odometryReset _ :: events => countedPoses (n + 1) events
  | n, .pose _ msg :: events => (msg, n) :: countedPoses n events
  | n, .frames _ _ _ :: events => countedPoses n events
  | n, .watchdog _ :: events => countedPoses n events

theorem countedPoses_append (n : ℕ) (es fs : List NodeEvent) :
    countedPoses n (es ++ fs) =
      countedPoses n es ++ countedPoses (n + es.countP NodeEvent.isReset) fs := by
  induction n, es using countedPoses.induct with
  | case1 n => rfl
  | case2 n count events ih =>
    rw [List.cons_append, countedPoses, countedPoses, ih, List.countP_cons_of_pos rfl]
    rw [Nat.add_right_comm, Nat.add_assoc]
  | case3 n now msg events ih => simpa [countedPoses, NodeEvent.isReset] using ih
  | case4 n a b c events ih => simpa [countedPoses, NodeEvent.isReset] using ih
  | case5 n now events ih => simpa [countedPoses, NodeEvent.isReset] using ih

theorem countedPoses_sent {logged : List NodeEvent} (now : ℤ) (msg : VslamPoseMsg) (due : Prop)
    [Decidable due] (h : ∀ e ∈ logged, ∃ a b c, e = .frames a b c) (n : ℕ) :
    countedPoses n (.pose now msg :: logged ++ if due then [.watchdog now] else []) = [(msg, n)] ∧
      (NodeEvent.pose now msg :: logged ++ if due then [NodeEvent.watchdog now] else []).countP
        NodeEvent.isReset = 0 := by
  have hlogged : (∀ m, countedPoses m logged = []) ∧ logged.countP NodeEvent.isReset = 0 := by
    induction logged with
    | nil => exact ⟨fun m => rfl, rfl⟩
    | cons e logged ih =>
      obtain ⟨a, b, c, rfl⟩ := h e List.mem_cons_self
      simpa [countedPoses, NodeEvent.isReset] using ih fun e he => h e (List.mem_cons_of_mem _ he)
  rw [← List.singleton_append, List.append_assoc, countedPoses_append, countedPoses_append]
  simp only [List.countP_append, hlogged]
  split <;> exact ⟨rfl, rfl⟩

theorem le_of_mem_countedPoses {n : ℕ} {events : List NodeEvent} {e : VslamPoseMsg × ℕ}
    (h : e ∈ countedPoses n events) : n ≤ e.2 := by
  induction n, events using countedPoses.induct with
  | case1 n => exact absurd h List.not_mem_nil
  | case2 n count events ih => exact (Nat.le_succ n).trans (ih h)
  | case3 n now msg events ih =>
    obtain rfl | h := List.mem_cons.mp h
    · exact le_rfl
    · exact ih h
  | case4 n a b c events ih => exact ih h
  | case5 n now events ih => exact ih h

theorem countedPoses_pairwise (n : ℕ) (events : List NodeEvent) :
    (countedPoses n events).Pairwise fun a b => a.2 ≤ b.2 := by
  induction n, events using countedPoses.induct with
  | case1 n => exact List.Pairwise.nil
  | case2 n count events ih => exact ih
  | case3 n now msg events ih =>
    exact List.pairwise_cons.mpr ⟨fun e he => le_of_mem_countedPoses he, ih⟩
  | case4 n a b c events ih => exact ih
  | case5 n now events ih => exact ih

/-- The messages written to the connections of a server, in their order. -/
def SocketServer.messages (srv : SocketServer) : List VslamPoseMsg :=
  srv.connections.flatMap (·.messages)

theorem SocketServer.messages_accept (srv : SocketServer) :
    srv.socketAcceptNonblock.messages = srv.messages := by
  obtain ⟨client, closed⟩ := srv
  cases client <;> simp [messages, socketAcceptNonblock, connections]

theorem SocketServer.messages_send (srv : SocketServer) (msg : VslamPoseMsg)
    (n : Option (Fin 119)) :
    (srv.socketSendPose msg n).2.messages = srv.messages ∨
      (srv.socketSendPose msg n).2.messages = srv.messages ++ [msg] := by
  obtain ⟨client, closed⟩ := srv
  cases client with
  | none => exact .inl rfl
  | some c =>
    refine .inr ?_
    simp only [socketSendPose]
    split <;> simp [messages, connections]

/-- What a pass does to the poses: those it writes are among those it counts, and the counter
they carry is that of the losses. -/
theorem slamPass_counted (interval : ℤ) (st : LoopState) (p : Pass) {n : ℕ}
    (hn : st.resetCounter = UInt8.ofNat n) :
    let step := slamPass interval st p
    step.1.resetCounter = UInt8.ofNat (n + step.2.countP NodeEvent.isReset) ∧
      (∀ e ∈ countedPoses n step.2, e.1.resetCounter = UInt8.ofNat e.2) ∧
      ∃ written, step.1.srv.messages = st.srv.messages ++ written ∧
        written.Sublist ((countedPoses n step.2).map Prod.fst) := by
  have hstep := slamPass_step interval st p
  generalize slamPass interval st p = step at hstep ⊢
  have hsrv : ∀ srv, srv = st.srv ∨ srv = st.srv.socketAcceptNonblock →
      srv.messages = st.srv.messages := by
    rintro srv (rfl | rfl)
    · rfl
    · exact st.srv.messages_accept
  cases hstep with
  | idle srv frames h _ =>
    exact ⟨by simpa using hn, by simp [countedPoses], [], by simpa using hsrv srv h, by simp⟩
  | lost srv frames h _ =>
    refine ⟨?_, by simp [countedPoses], [], by simpa using hsrv srv h, by simp⟩
    rw [hn, List.countP_singleton, UInt8.ofNat_add]
    rfl
  | sent srv frames msg logged h _ _ hmsg hlogged =>
    obtain ⟨hcounted, hresets⟩ := countedPoses_sent p.now msg
      (watchdogInterval ≤ p.now - st.lastWatchdog) hlogged n
    simp only [hcounted, hresets]
    refine ⟨hn, by simpa using hmsg.trans hn, ?_⟩
    obtain hmessages | hmessages := srv.messages_send msg p.written
    · exact ⟨[], by simpa [hsrv srv h] using hmessages, by simp⟩
    · exact ⟨[msg], by simpa [hsrv srv h] using hmessages, by simp⟩

theorem slamLoop_counted (interval : ℤ) (st : LoopState) (passes : List Pass) {n : ℕ}
    (hn : st.resetCounter = UInt8.ofNat n) :
    let run := slamLoop interval st passes
    (∀ e ∈ countedPoses n run.2, e.1.resetCounter = UInt8.ofNat e.2) ∧
      ∃ written, run.1.srv.messages = st.srv.messages ++ written ∧
        written.Sublist ((countedPoses n run.2).map Prod.fst) := by
  induction passes generalizing st n with
  | nil => exact ⟨by simp [slamLoop, countedPoses], [], by simp [slamLoop], by simp⟩
  | cons p passes ih =>
    obtain ⟨hcounter, hstep, written, hwritten, hsub⟩ := slamPass_counted interval st p hn
    obtain ⟨hrest, written', hwritten', hsub'⟩ := ih _ hcounter
    simp only [slamLoop, countedPoses_append]
    refine ⟨?_, written ++ written', ?_, ?_⟩
    · intro e he
      exact (List.mem_append.mp he).elim (hstep e) (hrest e)
    · rw [hwritten', hwritten, List.append_assoc]
    · rw [List.map_append]
      exact hsub.append hsub'

theorem flatten_sublist_of_delivers {connections : List Connection} {attempts : List Attempt}
    {complete : List (List VslamPoseMsg)} (h : Delivers connections attempts complete) :
    complete.flatten.Sublist (connections.flatMap (·.messages)) := by
  induction h with
  | nil => exact List.nil_sublist _
  | refused x hx _ ih => simpa using ih
  | pending _ _ ih => simpa using ih
  | @accepted c connections attempts complete s _ _ ih =>
    rw [List.flatten_cons, List.flatMap_cons]
    exact (List.take_sublist _ _).append ih

/-- What the bridge handles are poses the node has sent, in their order. -/
theorem exists_handled_messages {connections : List Connection} {attempts : List Attempt}
    {complete : List (List VslamPoseMsg)} {rounds : List Round}
    (h : Delivers connections attempts complete)
    (hstart : ∀ c ∈ connections, c.accepted <+: imageOf c.messages)
    (hread : rounds.map (fun r => (r.connection, r.pose)) = tagged (readPoses attempts).1) :
    ∃ messages : List VslamPoseMsg, messages.Sublist (connections.flatMap (·.messages)) ∧
      messages.map VslamPoseMsg.stored = (handled rounds).map Round.pose := by
  obtain ⟨later, hlater⟩ := List.takeWhile_prefix (l := rounds) fun r : Round => !r.shutdown
  refine ⟨complete.flatten.take (handled rounds).length,
    (List.take_sublist _ _).trans (flatten_sublist_of_delivers h), ?_⟩
  have hall := pose_rounds_of_delivers h hstart hread
  rw [List.map_take, ← hall, ← List.map_take]
  have hfirst : rounds.take (handled rounds).length = handled rounds := by
    conv_lhs => rw [← hlater]
    exact List.take_left' (congrArg List.length (congrArg handled hlater).symm)
  rw [hfirst]

theorem slamPass_aligned (interval : ℤ) {st : LoopState} (h : st.srv.Aligned) (p : Pass) :
    (slamPass interval st p).1.srv.Aligned := by
  have hsrv : ∀ srv, srv = st.srv ∨ srv = st.srv.socketAcceptNonblock → srv.Aligned := by
    rintro srv (rfl | rfl)
    · exact h
    · exact aligned_apply h .accept
  have hstep := slamPass_step interval st p
  generalize slamPass interval st p = step at hstep ⊢
  cases hstep with
  | idle srv frames hsame _ => exact hsrv srv hsame
  | lost srv frames hsame _ => exact hsrv srv hsame
  | sent srv frames msg logged hsame _ _ _ _ =>
    exact aligned_apply (hsrv srv hsame) (.send msg p.written)

theorem slamLoop_aligned (interval : ℤ) {st : LoopState} (h : st.srv.Aligned) (passes : List Pass) :
    (slamLoop interval st passes).1.srv.Aligned := by
  induction passes generalizing st with
  | nil => exact h
  | cons p passes ih => exact ih (slamPass_aligned interval h p)

theorem ofNat_eq_iff_dvd {m n : ℕ} (h : m ≤ n) :
    UInt8.ofNat m = UInt8.ofNat n ↔ 256 ∣ n - m := by
  rw [← UInt8.toNat_inj, UInt8.toNat_ofNat', UInt8.toNat_ofNat', ← Nat.modEq_iff_dvd' h]
  rfl

/-- Whatever the node loses, however its connections break off and its bytes are cut: each pose
that the reader yields and the bridge handles is one the node sent, and between two of them the
reset counter sent to the autopilot changes exactly when the odometry was lost in between, counted
to 256. -/
theorem bridge_signals_losses {cfg : SlamConfig} {poseTime watchdogTime : ℤ} {passes : List Pass}
    {run : LoopState × List NodeEvent}
    (hrun : runSlamLoop cfg poseTime watchdogTime passes = some run)
    {attempts : List Attempt} {complete : List (List VslamPoseMsg)} {rounds : List Round}
    (hdelivers : Delivers run.1.srv.connections attempts complete)
    (hread : rounds.map (fun r => (r.connection, r.pose)) = tagged (readPoses attempts).1)
    (build : MavBuild) :
    ∃ counted : List (VslamPoseMsg × ℕ), counted.Sublist (countedPoses 0 run.2) ∧
      counted.map (fun e => e.1.stored) = (handled rounds).map Round.pose ∧
      counted.Pairwise (fun a b => a.2 ≤ b.2) ∧
      ∀ (i : ℕ) (p q : VslamPoseMsg × ℕ) (a b : List Sent), counted[i]? = some p →
        counted[i + 1]? = some q → (runBridge build rounds)[i]? = some a →
        (runBridge build rounds)[i + 1]? = some b →
          ∀ v ∈ resetCounters a, ∀ w ∈ resetCounters b, (v ≠ w ↔ ¬256 ∣ q.2 - p.2) := by
  obtain ⟨interval, -, rfl⟩ := Option.map_eq_some_iff.mp hrun
  obtain ⟨hcounter, written, hwritten, hsub⟩ := slamLoop_counted interval
    ⟨⟨none, []⟩, 0, poseTime, watchdogTime, 0⟩ passes (n := 0) rfl
  have hstart : SocketServer.messages ⟨none, []⟩ = [] := rfl
  rw [hstart, List.nil_append] at hwritten
  let start : LoopState := ⟨⟨none, []⟩, 0, poseTime, watchdogTime, 0⟩
  have halignedStart : start.srv.Aligned := ⟨by simp [start], by simp [start]⟩
  have haligned := slamLoop_aligned interval halignedStart passes
  obtain ⟨messages, hmessages, hposes⟩ :=
    exists_handled_messages hdelivers haligned.connections hread
  obtain ⟨counted, hcounted, rfl⟩ := List.sublist_map_iff.mp (hmessages.trans (hwritten ▸ hsub))
  rw [List.map_map] at hposes
  have hmono : counted.Pairwise fun a b => a.2 ≤ b.2 := (countedPoses_pairwise 0 _).sublist hcounted
  refine ⟨counted, hcounted, hposes, hmono, ?_⟩
  intro i p q a b hp hq ha hb v hv w hw
  have hround : ∀ (j : ℕ) (c : VslamPoseMsg × ℕ), counted[j]? = some c →
      ∃ r, (handled rounds)[j]? = some r ∧ r.message.resetCounter = UInt8.ofNat c.2 := by
    intro j c hc
    have hj : ((handled rounds).map Round.pose)[j]? = some c.1.stored := by
      rw [← hposes, List.getElem?_map, hc]
      rfl
    rw [List.getElem?_map, Option.map_eq_some_iff] at hj
    obtain ⟨r, hr, hrc⟩ := hj
    have hsame : r.message.resetCounter = c.1.resetCounter := by
      have hcounters := congrArg PoseMessage.resetCounter hrc
      exact UInt8.toNat_inj.mp (Int.ofNat_inj.mp hcounters)
    exact ⟨r, hr, hsame ▸ hcounter c (hcounted.subset (List.mem_of_getElem? hc))⟩
  obtain ⟨r, hr, hrp⟩ := hround i p hp
  obtain ⟨s, hs, hsq⟩ := hround (i + 1) q hq
  have hle : p.2 ≤ q.2 := by
    obtain ⟨hi, rfl⟩ := List.getElem?_eq_some_iff.mp hp
    obtain ⟨hi', rfl⟩ := List.getElem?_eq_some_iff.mp hq
    exact List.pairwise_iff_getElem.mp hmono i (i + 1) hi hi' (Nat.lt_succ_self i)
  obtain ⟨-, rfl⟩ := (mem_resetCounters_run ha).mp hv
  obtain ⟨-, rfl⟩ := (mem_resetCounters_run hb).mp hw
  rw [resetCounters_change hr hs, hrp, hsq, Ne, ofNat_eq_iff_dvd hle]

/-- A pose a second after the start, a loss of the odometry and a pose again. -/
def lossPasses : List Pass :=
  let still : OdometryAnswer := .pose ⟨0, 0, 0, 0, 0, 0⟩ ⟨true, 0, 0, fun _ _ => .nan⟩ 0
  [⟨true, some ⟨false⟩, some ⟨false⟩, still, 1000000000, 0, some (Fin.last 118)⟩,
    ⟨false, some ⟨false⟩, some ⟨false⟩, .null true, 2000000000, 0, none⟩,
    ⟨false, some ⟨false⟩, some ⟨false⟩, still, 3000000000, 0, some (Fin.last 118)⟩]

def lossMessages : List VslamPoseMsg := [originPose, { originPose with resetCounter := 1 }]

def lossSocket : Socket :=
  ⟨lossMessages.map fun m => ⟨m.bytes, List.ne_nil_of_length_pos (by simp [m.bytes_length])⟩, .eof⟩

def lossRounds : List Round := lossMessages.map fun m => ⟨0, m, false, 0⟩

theorem bridge_signals_losses_one : ∃ (run : LoopState × List NodeEvent)
    (counted : List (VslamPoseMsg × ℕ)), runSlamLoop {} 0 0 lossPasses = some run ∧
      counted.map (fun e => e.1.stored) = lossMessages.map VslamPoseMsg.stored ∧
      ∀ (i : ℕ) (p q : VslamPoseMsg × ℕ) (a b : List Sent), counted[i]? = some p →
        counted[i + 1]? = some q → (runBridge allFields lossRounds)[i]? = some a →
        (runBridge allFields lossRounds)[i + 1]? = some b →
          ∀ v ∈ resetCounters a, ∀ w ∈ resetCounters b, (v ≠ w ↔ ¬256 ∣ q.2 - p.2) := by
  have hwhole : ∀ m : VslamPoseMsg, m.bytes.take 118 = m.bytes :=
    fun m => List.take_of_length_le m.bytes_length.le
  have hdelivers : Delivers [⟨lossMessages, ([] ++ originPose.bytes.take 118) ++
      (VslamPoseMsg.bytes { originPose with resetCounter := 1 }).take 118⟩]
      [.connected lossSocket] [lossMessages.take (lossSocket.bytes.length / 118)] := by
    refine .accepted ?_ .nil
    simp [hwhole, lossSocket, lossMessages, Socket.bytes]
  have hall : lossMessages.take (lossSocket.bytes.length / 118) = lossMessages := by
    simp [lossSocket, lossMessages, Socket.bytes, VslamPoseMsg.bytes_length]
  rw [hall] at hdelivers
  have hrun : runSlamLoop {} 0 0 lossPasses = some _ := rfl
  have hread : lossRounds.map (fun r => (r.connection, r.pose)) =
      tagged (readPoses [.connected lossSocket]).1 := by
    have hstream : lossSocket.bytes <+: imageOf lossMessages := by
      simp [lossSocket, Socket.bytes, imageOf, List.flatMap_map]
    rw [readPoses_connected hstream, hall]
    rfl
  obtain ⟨counted, -, hmap, -, hsignal⟩ := bridge_signals_losses hrun hdelivers hread allFields
  exact ⟨_, counted, hrun, hmap, hsignal⟩

end MowerRover.Vslam
