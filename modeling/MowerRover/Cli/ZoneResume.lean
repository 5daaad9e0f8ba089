import MowerRover.Cli.ZoneSwitch
import MowerRover.Zone.FenceCode

/-!
# `mower zone resume`

The laptop downloads the mission, reads which of its items is the current one,
and asks whether to set it again. The current item is numbered among all items
and compared with the number of waypoints alone, so that a mission counts as
complete before its last waypoints are reached.
-/

namespace MowerRover.Cli

open Effects Mavlink Zone ZoneSelect

structure ResumeOptions where
  zoneFile : String
  mavlinkEndpoint : String := "udp:127.0.0.1:14550"
  dryRun : Bool := false
  deriving DecidableEq, Repr

/-- The last lines of the command, by what they say. -/
inductive ResumeEnding
  | wouldResume
  | nothingToResume
  | cancelled
  | indexSet
  deriving DecidableEq, Repr

/-- What the command shows. -/
structure ResumeReport where
  zoneId : String
  currentSeq : ℕ
  totalWaypoints : ℕ
  ending : ResumeEnding
  deriving DecidableEq, Repr

namespace ZoneResume

/-- `len([item for item in mission_items if item.command == 16])`. -/
def countWaypoints : List (Option MissionItem) → Except PyError ℕ
  | [] => pure 0
  | none :: _ => throw (.attribute "'NoneType' object has no attribute 'command'")
  | some item :: items => do
    let others ← countWaypoints items
    pure (if item.command = 16 then others + 1 else others)

def currentPoll : ToolOp := .link (.recvMatch [.missionCurrent])

def offer (zoneId : String) (currentSeq : ℕ) : ToolOp :=
  .prompt s!"Resume {zoneId} from waypoint {currentSeq + 1}?"

/-- From the current item on. -/
def resumeFrom (zone : ZoneConfig) (dryRun : Bool) (conn : Conn) (totalWaypoints currentSeq : ℕ) :
    ToolM ResumeReport := do
  let report := ResumeReport.mk zone.zoneId currentSeq totalWaypoints
  if dryRun then pure (report .wouldResume)
  else if totalWaypoints ≤ currentSeq then pure (report .nothingToResume)
  else if ← ask (.prompt s!"Resume {zone.zoneId} from waypoint {currentSeq + 1}?") then
    liftLink (send conn (.missionSetCurrent currentSeq))
    pure (report .indexSet)
  else pure (report .cancelled)

/-- What happens on the open link. -/
def resumeOn (zone : ZoneConfig) (dryRun : Bool) (conn : Conn) : ToolM ResumeReport := do
  let missionItems ← liftLink (downloadMission conn 0)
  let totalWaypoints ← raised (countWaypoints missionItems)
  match ← liftLink (recvMatch [.missionCurrent]) with
  | some (.missionCurrent currentSeq) => resumeFrom zone dryRun conn totalWaypoints currentSeq
  | _ => throw (.exit 1 "Could not read current mission state")

end ZoneResume

open ZoneResume

def resumeZone (shapely : Shapely) (options : ResumeOptions) : ToolM ResumeReport := do
  let file ← ask (.readYaml options.zoneFile)
  let zone ← orExit "1" (raised (loadZoneConfig shapely options.zoneFile file))
  openLink { endpoint := options.mavlinkEndpoint } (resumeOn zone options.dryRun)

section Mission

variable {zone : ZoneConfig} {waypoints : List LatLon} {items : List MissionItem}

theorem countWaypoints_eq (items : List MissionItem) :
    countWaypoints (items.map some) = .ok (items.countP (·.command = 16)) := by
  induction items with
  | nil => rfl
  | cons item items ih =>
    rw [List.map_cons, countWaypoints, ih, List.countP_cons]
    by_cases h : item.command = 16 <;> simp [h]

theorem countWaypoints_zoneToMission (h : zoneToMission zone waypoints = .ok items) :
    countWaypoints (items.map some) = .ok (waypoints.length + 1) := by
  obtain ⟨home, points, -, hpoints, rfl⟩ := zoneToMission_eq_ok.mp h
  have hdecodes := missionHead_decodesTo zone home (missionHead zone home).length points
  obtain ⟨first, rest, hitems, -, hcommand, -⟩ := hdecodes.first
  have hrest := congrArg List.length hdecodes.waypoints
  rw [hitems, List.tail_cons, List.length_map, ← List.countP_eq_length_filter,
    encodePoints_length hpoints] at hrest
  have hfirst : (first :: rest).countP (·.command = 16) = rest.countP (·.command = 16) + 1 :=
    List.countP_cons_of_pos (decide_eq_true hcommand)
  rw [countWaypoints_eq, hitems, hfirst]
  exact congrArg (fun n => Except.ok (n + 1)) hrest

theorem zoneToMission_length (h : zoneToMission zone waypoints = .ok items) :
    items.length = waypoints.length + if zone.commands.fenceEnable then 4 else 3 := by
  obtain ⟨home, points, -, hpoints, rfl⟩ := zoneToMission_eq_ok.mp h
  have hrows := congrArg List.length
    (waypointRows_positions (missionHead zone home).length points)
  rw [List.length_map] at hrows
  rw [List.length_append, hrows, encodePoints_length hpoints, Nat.add_comm, missionHead]
  split_ifs <;> rfl

end Mission

abbrev Calls := List (Call toolSignature)

/-- The autopilot has said that this item is the current one. -/
def Received (currentSeq : ℕ) (past : Calls) : Prop :=
  ⟨currentPoll, some (.missionCurrent currentSeq)⟩ ∈ past

/-- The operator was asked, and when the answer was yes the index was set. -/
def Offered (zoneId : String) (currentSeq : ℕ) (past : Calls) : Prop :=
  ∃ accepted : Bool, ⟨offer zoneId currentSeq, accepted⟩ ∈ past ∧ (accepted = true →
    ∃ conn, ⟨.link (.send conn (.missionSetCurrent currentSeq)), ()⟩ ∈ past)

/-- The mission is complete exactly when none of its items is left, and otherwise it is offered. -/
structure ResumesRight (items : List MissionItem) (zoneId : String) (currentSeq : ℕ)
    (report : ResumeReport) (past : Calls) : Prop where
  complete_iff : report.ending = .nothingToResume ↔ items.length ≤ currentSeq
  offered : report.ending ≠ .nothingToResume → Offered zoneId currentSeq past

/-- What the command does once it has received an index: the total it compares it with counts
the waypoints alone. -/
structure Resumed (totalWaypoints : ℕ) (zoneId : String) (currentSeq : ℕ)
    (report : ResumeReport) (past : Calls) : Prop where
  shown : report.currentSeq = currentSeq
  received : ∀ seq, Received seq past ↔ seq = currentSeq
  nothing_iff : report.ending = .nothingToResume ↔ totalWaypoints ≤ currentSeq
  offered : report.ending ≠ .nothingToResume → Offered zoneId currentSeq past

section Run

variable {around : Surroundings} {items : List MissionItem}

/-- The autopilot serves the mission, and its current item has not been received yet. -/
structure Awaiting (items : List MissionItem) (s : Rover) : Prop where
  serving : Serving items 0 [] s.loop.state
  unreceived : ∀ seq, ¬ Received seq s.past

theorem received_cons {call : Call toolSignature} {past : Calls} {seq : ℕ}
    (hop : call.1 ≠ currentPoll) : Received seq (call :: past) ↔ Received seq past := by
  unfold Received
  rw [List.mem_cons, or_iff_right]
  rintro rfl
  exact hop rfl

theorem received_poll {answer : Option Msg} {past : Calls} {seq : ℕ} :
    Received seq (⟨currentPoll, answer⟩ :: past) ↔
      answer = some (.missionCurrent seq) ∨ Received seq past := by
  unfold Received
  rw [List.mem_cons]
  apply or_congr_left
  constructor
  · intro h
    exact (eq_of_heq (Sigma.mk.inj h).2).symm
  · rintro rfl
    rfl

theorem waitFor_calls {β : Type} {allowed : LinkOp → Prop} {types : List MsgType}
    (hrecv : allowed (.recvMatch types)) (accept : Msg → Option β) (rounds : ℕ) :
    (waitFor types accept rounds).Calls allowed := by
  induction rounds with
  | zero => trivial
  | succ rounds ih =>
    apply Program.Calls.bind (Program.calls_perform (S := linkSignature) hrecv)
    intro answer
    cases answer with
    | none => exact ih
    | some m => cases hm : accept m <;> simp [hm, ih]

/-- Not the call that asks for the current item. -/
def AsksOther (op : LinkOp) : Prop := op ≠ .recvMatch [.missionCurrent]

theorem downloadMission_calls (conn : Conn) (t : ℕ) :
    (downloadMission conn t).Calls AsksOther := by
  have hsend : ∀ msg, (send conn msg).Calls AsksOther :=
    fun msg => Program.calls_perform (S := linkSignature) (by simp [AsksOther])
  have hwait : ∀ {β : Type} (timeout : ℚ) (types : List MsgType) (accept : Msg → Option β),
      types ≠ [.missionCurrent] →
        (waitWithin timeout types accept).Calls AsksOther := by
    intro β timeout types accept htypes
    apply Program.Calls.bind (Program.calls_perform (S := linkSignature) (by simp [AsksOther]))
    exact fun rounds => waitFor_calls (by simpa [AsksOther] using htypes) accept rounds
  have hitems : ∀ seqs got, (requestItems conn t seqs got).Calls AsksOther := by
    intro seqs
    induction seqs with
    | nil => exact fun got => trivial
    | cons seq seqs ih =>
      intro got
      apply (hsend _).bind fun _ => (hwait _ _ _ (by simp)).bind fun answer => ?_
      cases answer with
      | none => trivial
      | some item => exact ih _
  apply (hsend _).bind fun _ => (hwait _ _ _ (by simp)).bind fun answer => ?_
  cases answer with
  | none => trivial
  | some itemCount =>
    by_cases hzero : itemCount = 0
    · simp [hzero]
    · simp only [if_neg hzero]
      exact (hitems _ _).bind fun got => (hsend _).bind fun _ => trivial

theorem downloadMission_awaiting (conn : Conn) (hn : Numbered items 0) :
    Triple (rover around) (Awaiting items) (liftLink (downloadMission conn 0))
      (fun got s => got = items.map some ∧ Awaiting items s) fun _ => Awaiting items := by
  apply Triple.mapOps (h := rover around)
  show Triple (roverLink around) (Awaiting items) (downloadMission conn 0) _ _
  intro s hs
  obtain ⟨hresult, hloop⟩ := run_roverLink around (downloadMission conn 0) s
  obtain ⟨hserving, hgot⟩ := downloadMission_serves conn hn s.loop hs.serving
  have hkeeps : ∀ op, AsksOther op →
      Keeps (roverLink around) (fun s => ∀ seq, ¬ Received seq s.past) op := by
    intro op hop s hs seq
    rw [show (roverLink around op s).2.1.past =
      ⟨.link op, (closedLoop op s.loop).1⟩ :: s.past from rfl, received_cons]
    · exact hs seq
    · simpa [currentPoll, AsksOther] using hop
  have hunreceived := (Preserves.of_calls hkeeps (downloadMission_calls conn 0)).state hs.unreceived
  rw [← hloop] at hserving
  constructor
  · intro got hok
    rw [hresult] at hok
    exact ⟨hgot got hok, hserving, hunreceived⟩
  · exact fun _ _ => ⟨hserving, hunreceived⟩

theorem keeps_awaiting {op : ToolOp} (hop : IsBeside op) : Keeps (rover around) (Awaiting items)
    op := by
  intro s hs
  obtain ⟨answer, hpast⟩ := rover_past around s op
  constructor
  · obtain ⟨got, rest, hq, heq⟩ := besides_eq op (autopilot.moved s.loop)
    have hmoved := autopilot.moved_invariant (I := Serving items 0 [])
      (fun mv w => Serving.move mv [] w)
      hs.serving
    rw [rover_loop around s hop.ne_link, heq]
    exact { Serving.take got rest [] _ hq hmoved with seen := by simp }
  · intro seq
    rw [hpast, received_cons]
    · exact hs.unreceived seq
    · exact hop.ne_link _

theorem keeps_resumed (totalWaypoints : ℕ) (zoneId : String) (report : ResumeReport) {op : ToolOp}
    (hop : IsBeside op) : Keeps (rover around)
      (fun s => ∃ seq, Resumed totalWaypoints zoneId seq report s.past) op := by
  rintro s ⟨seq, hs⟩
  obtain ⟨answer, hpast⟩ := rover_past around s op
  refine ⟨seq, hs.shown, fun seq' => ?_, hs.nothing_iff, fun hne => ?_⟩
  · rw [hpast, received_cons, hs.received]
    exact hop.ne_link _
  · obtain ⟨accepted, hasked, hset⟩ := hs.offered hne
    rw [hpast]
    refine ⟨accepted, List.mem_cons_of_mem _ hasked, fun haccepted => ?_⟩
    obtain ⟨conn, hsent⟩ := hset haccepted
    exact ⟨conn, List.mem_cons_of_mem _ hsent⟩

theorem keeps_unreceived {op : ToolOp} (hop : IsBeside op) :
    Keeps (rover around) (fun s => ∀ seq, ¬ Received seq s.past) op := by
  intro s hs seq
  obtain ⟨answer, hpast⟩ := rover_past around s op
  rw [hpast, received_cons]
  · exact hs seq
  · exact hop.ne_link _

/-- From the index on, nothing can fail. -/
theorem resumeFrom_triple (zone : ZoneConfig) (conn : Conn) (totalWaypoints currentSeq : ℕ) :
    Triple (rover around) (fun s => ∀ seq, Received seq s.past ↔ seq = currentSeq)
      (resumeFrom zone false conn totalWaypoints currentSeq)
      (fun report s => Resumed totalWaypoints zone.zoneId currentSeq report s.past)
      fun _ _ => False := by
  unfold resumeFrom
  simp only [Bool.false_eq_true, if_false]
  by_cases hall : totalWaypoints ≤ currentSeq
  · rw [if_pos hall]
    exact Triple.pure fun s hs => ⟨rfl, hs, by simp [hall], by simp⟩
  rw [if_neg hall]
  apply Triple.bind (Q := fun accepted s => (∀ seq, Received seq s.past ↔ seq = currentSeq) ∧
    ⟨offer zone.zoneId currentSeq, accepted⟩ ∈ s.past)
  · apply Triple.perform
    intro s hs
    refine ⟨fun seq => ?_, List.mem_cons_self⟩
    rw [← hs seq]
    exact received_cons (by simp [currentPoll])
  intro accepted
  cases accepted with
  | true =>
    apply Triple.bind (Q := fun _ s => (∀ seq, Received seq s.past ↔ seq = currentSeq) ∧
      ⟨offer zone.zoneId currentSeq, true⟩ ∈ s.past ∧
        ⟨.link (.send conn (.missionSetCurrent currentSeq)), ()⟩ ∈ s.past)
    · apply Triple.mapOps (h := rover around)
      apply Triple.perform (S := linkSignature)
      rintro s ⟨hreceived, hasked⟩
      refine ⟨fun seq => ?_, List.mem_cons_of_mem _ hasked, List.mem_cons_self⟩
      rw [← hreceived seq]
      exact received_cons (by simp [currentPoll])
    · intro _
      apply Triple.pure
      rintro s ⟨hreceived, hasked, hsent⟩
      exact ⟨rfl, hreceived, by simp [hall], fun _ => ⟨true, hasked, fun _ => ⟨conn, hsent⟩⟩⟩
  | false =>
    apply Triple.pure
    rintro s ⟨hreceived, hasked⟩
    exact ⟨rfl, hreceived, by simp [hall], fun _ => ⟨false, hasked, by simp⟩⟩

theorem resumeOn_triple {zone : ZoneConfig} {planned : ZoneConfig} {waypoints : List LatLon}
    (h : zoneToMission planned waypoints = .ok items) (conn : Conn) :
    Triple (rover around) (Awaiting items) (resumeOn zone false conn)
      (fun report s => ∃ seq, Resumed (waypoints.length + 1) zone.zoneId seq report s.past)
      fun _ s => ∀ seq, ¬ Received seq s.past := by
  have hn := (zoneToMission_numbered h).1
  apply Triple.bind ((downloadMission_awaiting conn hn).onError fun _ _ hs => hs.unreceived)
  intro got
  apply Triple.assuming
  rintro rfl
  rw [countWaypoints_zoneToMission h, raised_ok_bind]
  apply Triple.bind (Q := fun answer s => ∃ past, s.past = ⟨currentPoll, answer⟩ :: past ∧
    ∀ seq, ¬ Received seq past)
  · apply Triple.mapOps (h := rover around)
    apply Triple.perform (S := linkSignature)
    exact fun s hs => ⟨s.past, rfl, hs.unreceived⟩
  intro (answer : Option Msg)
  have hother : (∀ seq, answer ≠ some (.missionCurrent seq)) →
      Triple (rover around) (fun s => ∃ past, s.past = ⟨currentPoll, answer⟩ :: past ∧
        ∀ seq, ¬ Received seq past)
        (throw (.exit 1 "Could not read current mission state") : ToolM ResumeReport)
        (fun report s => ∃ seq, Resumed (waypoints.length + 1) zone.zoneId seq report s.past)
        fun _ s => ∀ seq, ¬ Received seq s.past := by
    intro hne
    apply Triple.throw
    rintro s ⟨past, hpast, hnone⟩ seq
    rw [hpast, received_poll]
    exact not_or.mpr ⟨hne seq, hnone seq⟩
  cases answer with
  | none => exact hother (by simp)
  | some m =>
    cases m with
    | missionCurrent currentSeq =>
      apply (resumeFrom_triple zone conn (waypoints.length + 1) currentSeq).conseq
      · rintro s ⟨past, hpast, hnone⟩ seq
        rw [hpast, received_poll, or_iff_left (hnone seq), Option.some.injEq,
          Msg.missionCurrent.injEq,
          eq_comm]
      · exact fun report s hs => ⟨currentSeq, hs⟩
      · exact fun _ _ hs => hs.elim
    | _ => exact hother (by simp)

theorem resumeZone_triple (shapely : Shapely) (options : ResumeOptions)
    (hdry : options.dryRun = false) {zone : ZoneConfig} {waypoints : List LatLon}
    (hload : loadZoneConfig shapely options.zoneFile (around.files options.zoneFile) = .ok zone)
    (h : zoneToMission zone waypoints = .ok items) :
    Triple (rover around) (Awaiting items) (resumeZone shapely options)
      (fun report s => ∃ seq, Resumed (waypoints.length + 1) zone.zoneId seq report s.past)
      fun _ s => ∀ seq, ¬ Received seq s.past := by
  apply Triple.bind (Q := fun file s => file = around.files options.zoneFile ∧ Awaiting items s)
  · exact Triple.perform fun s hs => ⟨rfl, keeps_awaiting (by trivial) s hs⟩
  intro file
  apply Triple.assuming
  rintro rfl
  rw [hload, hdry]
  have hkeeps : ∀ op, IsConnecting op → Keeps (rover around) (Awaiting items) op :=
    fun op hop => keeps_awaiting hop.isBeside
  apply Triple.bind (Q := fun loaded s => loaded = zone ∧ Awaiting items s)
  · exact Triple.pure fun s hs => ⟨rfl, hs⟩
  intro loaded
  apply Triple.assuming
  rintro rfl
  apply openLink_triple (F := fun _ => Awaiting items) (J := Awaiting items)
  · simp
  · exact connectOnce_triple _ hkeeps fun t s _ hs _ => hkeeps (.waitHeartbeat t) trivial s hs
  · exact hkeeps
  · exact fun _ hs => hs
  · exact fun _ hs => hs.unreceived
  · exact fun op hop => keeps_unreceived hop.isBeside
  · exact fun report => keeps_resumed _ _ report (by trivial)
  · exact fun conn => resumeOn_triple h conn

end Run

/-- A command that has received an index reports and does the right thing with it, unless the
index is past as many items as there are waypoints and not past all of them. -/
theorem resumeZone_right_iff (shapely : Shapely) (around : Surroundings) (options : ResumeOptions)
    (hdry : options.dryRun = false) (zone : ZoneConfig) (waypoints : List LatLon)
    (items : List MissionItem)
    (hload : loadZoneConfig shapely options.zoneFile (around.files options.zoneFile) = .ok zone)
    (hitems : zoneToMission zone waypoints = .ok items) (start : Rover) (hstart : start.past = [])
    (hserves : Serving items 0 [] start.loop.state) :
    let o := (resumeZone shapely options).run (rover around) start
    ∀ currentSeq, Received currentSeq o.state.past → ∃ report, o.result = .ok report ∧
      (ResumesRight items zone.zoneId currentSeq report o.state.past ↔
        currentSeq < waypoints.length + 1 ∨
          waypoints.length + (if zone.commands.fenceEnable then 4 else 3) ≤ currentSeq) := by
  intro o currentSeq hreceived
  obtain ⟨hok, herr⟩ := resumeZone_triple shapely options hdry hload hitems start
    ⟨hserves, by simp [hstart, Received]⟩
  cases hresult : o.result with
  | error x => exact absurd hreceived (herr x hresult currentSeq)
  | ok report =>
    obtain ⟨seq, hresumed⟩ := hok report hresult
    obtain rfl := (hresumed.received currentSeq).mp hreceived
    refine ⟨report, rfl, ?_⟩
    have hlen := zoneToMission_length hitems
    have hmore : waypoints.length + 1 ≤ items.length := by
      rw [hlen]
      split_ifs <;> omega
    rw [← hlen]
    constructor
    · intro hright
      have hiff := hresumed.nothing_iff.symm.trans hright.complete_iff
      omega
    · intro hseq
      refine ⟨hresumed.nothing_iff.trans ?_, hresumed.offered⟩
      omega

/-- The autopilot says which item is the current one once it has been read. -/
def resumingRover (currentSeq : ℕ) : Rover where
  loop := ⟨⟨[], [], [], [], fun _ => triangleItems (.fin 2), none, false, false⟩,
    List.replicate 19 ⟨[.handle, .deliver], 9⟩ ++
      [⟨[.telemetry (.missionCurrent currentSeq), .deliver], 9⟩]⟩
  databasePath := ZoneActivate.databaseOf "ne"
  past := []

theorem resumingRover_serving (currentSeq : ℕ) :
    Serving (triangleItems (.fin 2)) 0 [] (resumingRover currentSeq).loop.state :=
  ⟨rfl, rfl, by simp [resumingRover], by simp [resumingRover, OnAir, World.air], by simp⟩

theorem received_of_report {currentSeq : ℕ} {report : ResumeReport}
    (h : ((resumeZone ⟨fun _ => .ok true⟩ { zoneFile := "zones/ne.yaml" }).run (rover (lawns 0))
      (resumingRover currentSeq)).result = .ok report) :
    Received report.currentSeq ((resumeZone ⟨fun _ => .ok true⟩ { zoneFile := "zones/ne.yaml" }).run
      (rover (lawns 0)) (resumingRover currentSeq)).state.past := by
  have hload : loadZoneConfig ⟨fun _ => .ok true⟩ "zones/ne.yaml"
    ((lawns 0).files "zones/ne.yaml") =
      .ok (triangleZone (.fin 2)) := triangleFile_loads _
  obtain ⟨seq, hresumed⟩ := (resumeZone_triple ⟨fun _ => .ok true⟩ { zoneFile := "zones/ne.yaml" }
    rfl hload (triangleZone_items (.fin 2)) (resumingRover currentSeq)
    ⟨resumingRover_serving currentSeq, by simp [resumingRover, Received]⟩).1 report h
  exact (hresumed.received _).mpr hresumed.shown

/-- At the speed command the mission is resumed. -/
theorem resumeZone_right_iff_speed :
    let o := (resumeZone ⟨fun _ => .ok true⟩ { zoneFile := "zones/ne.yaml" }).run (rover (lawns 0))
      (resumingRover 1)
    ∃ report, o.result = .ok report ∧
      ResumesRight (triangleItems (.fin 2)) "ne" 1 report o.state.past := by
  intro o
  have hresult : o.result = .ok ⟨"ne", 1, 2, .indexSet⟩ := by decide +kernel
  obtain ⟨report, hreport, hiff⟩ := resumeZone_right_iff ⟨fun _ => .ok true⟩ (lawns 0)
    { zoneFile := "zones/ne.yaml" } rfl (triangleZone (.fin 2)) [⟨.fin 1, .fin 0⟩]
    (triangleItems (.fin 2)) (triangleFile_loads _) (triangleZone_items (.fin 2)) (resumingRover 1)
    rfl (resumingRover_serving 1) 1 (received_of_report hresult)
  exact ⟨report, hreport, hiff.mpr (.inl (by decide))⟩

/-- At the resume distance, with the one waypoint still ahead, the mission counts as complete. -/
theorem resumeZone_gives_up :
    let o := (resumeZone ⟨fun _ => .ok true⟩ { zoneFile := "zones/ne.yaml" }).run (rover (lawns 0))
      (resumingRover 2)
    Serving (triangleItems (.fin 2)) 0 [] (resumingRover 2).loop.state ∧
    zoneToMission (triangleZone (.fin 2)) [⟨.fin 1, .fin 0⟩] = .ok (triangleItems (.fin 2)) ∧
    o.result = .ok ⟨"ne", 2, 2, .nothingToResume⟩ ∧ Received 2 o.state.past ∧
    ¬ ResumesRight (triangleItems (.fin 2)) "ne" 2 ⟨"ne", 2, 2, .nothingToResume⟩ o.state.past := by
  intro o
  have hresult : o.result = .ok ⟨"ne", 2, 2, .nothingToResume⟩ := by decide +kernel
  refine ⟨resumingRover_serving 2, triangleZone_items _, hresult, received_of_report hresult, ?_⟩
  intro hright
  exact absurd (hright.complete_iff.mp rfl) (by decide)

end MowerRover.Cli
