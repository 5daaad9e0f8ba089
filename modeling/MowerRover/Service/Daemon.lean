import MowerRover.Effects.Periodic

/-!
# The health daemon

`run_daemon` tells systemd that it is ready and then goes round once a second:
it feeds the watchdog every 15 seconds and takes a snapshot of the Jetson's
health every `health_interval_s` seconds. A snapshot that fails is logged.
-/

namespace MowerRover.Service

open Effects

/-- What a snapshot is logged as. -/
structure HealthLog where
  thermalZones : ℕ
  powerMode : String
  diskMounts : ℕ
  deriving DecidableEq

/-- A round of the loop: the clock, and what a snapshot gives if one is taken. -/
structure DaemonRound where
  now : ℚ
  snapshot : Except String HealthLog

inductive DaemonEvent
  | ready
  | watchdog (now : ℚ)
  | health (now : ℚ) (log : HealthLog)
  | healthError (now : ℚ) (error : String)
  | sync
  | stopped
  deriving DecidableEq

structure DaemonState where
  lastHealth : ℚ
  lastWatchdog : ℚ

def watchdogInterval : ℚ := 15

/-- `WatchdogSec=` of the unit. -/
def watchdogSec : ℚ := 30

/-- The log entry of a snapshot. -/
def healthEvent (r : DaemonRound) : DaemonEvent :=
  match r.snapshot with
  | .ok log => .health r.now log
  | .error error => .healthError r.now error

/-- The body of the loop; `hasSync` is `hasattr(os, "sync")`. -/
def daemonRound (hasSync : Bool) (healthIntervalS : ℤ) (st : DaemonState) (r : DaemonRound) :
    DaemonState × List DaemonEvent :=
  let fed := watchdogInterval ≤ r.now - st.lastWatchdog
  let checked := (healthIntervalS : ℚ) ≤ r.now - st.lastHealth
  (⟨if checked then r.now else st.lastHealth, if fed then r.now else st.lastWatchdog⟩,
    (if fed then [.watchdog r.now] else []) ++
      if checked then healthEvent r :: if hasSync then [.sync] else [] else [])

/-- The rounds until the daemon is told to shut down. -/
def daemonLoop (hasSync : Bool) (healthIntervalS : ℤ) :
    DaemonState → List DaemonRound → List DaemonEvent
  | _, [] => []
  | st, r :: rounds =>
    let step := daemonRound hasSync healthIntervalS st r
    step.2 ++ daemonLoop hasSync healthIntervalS step.1 rounds

def runDaemon (hasSync : Bool) (healthIntervalS : ℤ) (rounds : List DaemonRound) :
    List DaemonEvent :=
  .ready :: daemonLoop hasSync healthIntervalS ⟨-(healthIntervalS + 1), -16⟩ rounds ++ [.stopped]

def DaemonEvent.watchdogTime? : DaemonEvent → Option ℚ
  | .watchdog now => some now
  | _ => none

/-- The time of a snapshot, whatever came of it. -/
def DaemonEvent.healthTime? : DaemonEvent → Option ℚ
  | .health now _ => some now
  | .healthError now _ => some now
  | _ => none

theorem healthEvent_healthTime? (r : DaemonRound) : (healthEvent r).healthTime? = some r.now := by
  unfold healthEvent
  split <;> rfl

theorem healthEvent_watchdogTime? (r : DaemonRound) : (healthEvent r).watchdogTime? = none := by
  unfold healthEvent
  split <;> rfl

theorem daemonRound_times (hasSync : Bool) (healthIntervalS : ℤ) (st : DaemonState)
    (r : DaemonRound) :
    (daemonRound hasSync healthIntervalS st r).2.filterMap DaemonEvent.watchdogTime? =
        (if watchdogInterval ≤ r.now - st.lastWatchdog then [r.now] else []) ∧
      (daemonRound hasSync healthIntervalS st r).2.filterMap DaemonEvent.healthTime? =
        if (healthIntervalS : ℚ) ≤ r.now - st.lastHealth then [r.now] else [] := by
  have hfed : ∀ due : Prop, [Decidable due] →
      (if due then [DaemonEvent.watchdog r.now] else []).filterMap DaemonEvent.watchdogTime? =
          (if due then [r.now] else []) ∧
        (if due then [DaemonEvent.watchdog r.now] else []).filterMap DaemonEvent.healthTime? =
          [] := by
    intro due _
    split <;> exact ⟨rfl, rfl⟩
  have hsync : (if hasSync then [DaemonEvent.sync] else []).filterMap
    DaemonEvent.watchdogTime? = [] ∧
      (if hasSync then [DaemonEvent.sync] else []).filterMap DaemonEvent.healthTime? = [] := by
    cases hasSync <;> exact ⟨rfl, rfl⟩
  have hchecked : ∀ due : Prop, [Decidable due] →
      (if due then healthEvent r :: if hasSync then [DaemonEvent.sync] else [] else []).filterMap
          DaemonEvent.watchdogTime? = [] ∧
        (if due then healthEvent r :: if hasSync then [DaemonEvent.sync] else [] else []).filterMap
          DaemonEvent.healthTime? = if due then [r.now] else [] := by
    intro due _
    split
    · rw [List.filterMap_cons_none (healthEvent_watchdogTime? r),
        List.filterMap_cons_some (healthEvent_healthTime? r), hsync.1, hsync.2]
      exact ⟨rfl, rfl⟩
    · exact ⟨rfl, rfl⟩
  simp only [daemonRound, List.filterMap_append, hfed, hchecked, List.append_nil, List.nil_append,
    and_self]

theorem daemonLoop_times (hasSync : Bool) (healthIntervalS : ℤ) (st : DaemonState)
    (rounds : List DaemonRound) :
    (daemonLoop hasSync healthIntervalS st rounds).filterMap DaemonEvent.watchdogTime? =
        acts watchdogInterval st.lastWatchdog (rounds.map (·.now)) ∧
      (daemonLoop hasSync healthIntervalS st rounds).filterMap DaemonEvent.healthTime? =
        acts (healthIntervalS : ℚ) st.lastHealth (rounds.map (·.now)) := by
  induction rounds generalizing st with
  | nil => exact ⟨rfl, rfl⟩
  | cons r rounds ih =>
    obtain ⟨hdog, hhealth⟩ := daemonRound_times hasSync healthIntervalS st r
    obtain ⟨ihdog, ihhealth⟩ := ih (daemonRound hasSync healthIntervalS st r).1
    rw [daemonLoop, List.filterMap_append, List.filterMap_append, hdog, hhealth, ihdog, ihhealth,
      List.map_cons, acts, acts]
    constructor
    · simp only [daemonRound]
      split <;> rfl
    · simp only [daemonRound]
      split <;> rfl

def watchdogTimes (events : List DaemonEvent) : List ℚ :=
  events.filterMap DaemonEvent.watchdogTime?

def healthTimes (events : List DaemonEvent) : List ℚ := events.filterMap DaemonEvent.healthTime?

theorem runDaemon_times (hasSync : Bool) (healthIntervalS : ℤ) (rounds : List DaemonRound) :
    watchdogTimes (runDaemon hasSync healthIntervalS rounds) =
        acts watchdogInterval (-16) (rounds.map (·.now)) ∧
      healthTimes (runDaemon hasSync healthIntervalS rounds) =
        acts (healthIntervalS : ℚ) (-(healthIntervalS + 1)) (rounds.map (·.now)) := by
  obtain ⟨hdog, hhealth⟩ := daemonLoop_times hasSync healthIntervalS
    ⟨-(healthIntervalS + 1), -16⟩ rounds
  have hends : ∀ (f : DaemonEvent → Option ℚ) (es : List DaemonEvent), f .ready = none →
      f .stopped = none →
        (DaemonEvent.ready :: es ++ [DaemonEvent.stopped]).filterMap f = es.filterMap f := by
    intro f es hready hstopped
    rw [List.filterMap_append, List.filterMap_cons_none hready, List.filterMap_cons_none hstopped]
    exact List.append_nil _
  exact ⟨(hends _ _ rfl rfl).trans hdog, (hends _ _ rfl rfl).trans hhealth⟩

/-- The first round feeds the watchdog and takes a snapshot. From then on both keep their
intervals, whether or not the snapshots succeed; and with rounds at most `d` apart, neither is
late by `d`, so that systemd is fed in time as long as no round takes 15 seconds. -/
theorem runDaemon_paced (hasSync : Bool) (healthIntervalS : ℤ) {first : DaemonRound}
    (rounds : List DaemonRound) (hfirst : 0 ≤ first.now) (hpos : 0 < healthIntervalS) :
    let events := runDaemon hasSync healthIntervalS (first :: rounds)
    let times := first.now :: rounds.map (·.now)
    ∃ fed checked, watchdogTimes events = first.now :: fed ∧
      healthTimes events = first.now :: checked ∧
      Spaced watchdogInterval (first.now :: fed) ∧
      Spaced (healthIntervalS : ℚ) (first.now :: checked) ∧
      times.getLast (List.cons_ne_nil _ _) - (first.now :: fed).getLast (List.cons_ne_nil _ _)
        < watchdogInterval ∧
      ∀ d, Within d times →
        ((first.now :: fed).IsChain fun a b => b - a < watchdogInterval + d) ∧
        ((first.now :: checked).IsChain fun a b => b - a < healthIntervalS + d) ∧
        (d ≤ watchdogInterval → (first.now :: fed).IsChain fun a b => b - a < watchdogSec) := by
  obtain ⟨hdog, hhealth⟩ := runDaemon_times hasSync healthIntervalS (first :: rounds)
  have hdogpos : (0 : ℚ) < watchdogInterval := by norm_num [watchdogInterval]
  have hhealthpos : (0 : ℚ) < healthIntervalS := by exact_mod_cast hpos
  have hself : ∀ interval : ℚ, 0 < interval → first.now - first.now < interval := by
    intro interval h
    simpa using h
  rw [List.map_cons, acts, if_pos (by norm_num [watchdogInterval]; linarith)] at hdog
  rw [List.map_cons, acts, if_pos (by linarith)] at hhealth
  refine ⟨_, _, hdog, hhealth, acts_spaced _ _ _, acts_spaced _ _ _, ?_, fun d hd => ⟨?_, ?_, ?_⟩⟩
  · rw [getLast_acts]
    exact lastAct_fresh hdogpos (hself _ hdogpos) _
  · exact acts_within hdogpos (hself _ hdogpos) hd
  · exact acts_within hhealthpos (hself _ hhealthpos) hd
  · intro hle
    refine (acts_within hdogpos (hself _ hdogpos) hd).imp fun a b h => h.trans_le ?_
    norm_num [watchdogInterval, watchdogSec] at hle ⊢
    linarith

/-- A daemon whose second snapshot fails. -/
theorem runDaemon_paced_failing : ∃ fed checked,
    watchdogTimes (runDaemon true 10 [⟨100, .ok ⟨1, "15W", 2⟩⟩, ⟨101, .error "no sysfs"⟩,
      ⟨115, .error "no sysfs"⟩]) = 100 :: fed ∧
    healthTimes (runDaemon true 10 [⟨100, .ok ⟨1, "15W", 2⟩⟩, ⟨101, .error "no sysfs"⟩,
      ⟨115, .error "no sysfs"⟩]) = 100 :: checked ∧
    (100 :: fed).IsChain fun a b => b - a < watchdogSec := by
  have hfirst : (0 : ℚ) ≤ (⟨100, .ok ⟨1, "15W", 2⟩⟩ : DaemonRound).now := by norm_num
  obtain ⟨fed, checked, hfed, hchecked, -, -, -, hpace⟩ := runDaemon_paced true 10
    [⟨101, .error "no sysfs"⟩, ⟨115, .error "no sysfs"⟩] hfirst (by norm_num)
  refine ⟨fed, checked, hfed, hchecked, (hpace 14 ?_).2.2 (by norm_num [watchdogInterval])⟩
  norm_num [Within]

end MowerRover.Service
