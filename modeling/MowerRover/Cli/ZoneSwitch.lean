import MowerRover.Cli.ArmedGuard
import MowerRover.Cli.ZoneActivate
import MowerRover.Cli.ZoneStored

/-!
# A zone switch across two machines

`mower zone select` against a rover: a faithful autopilot that stores mission,
fence and rally points, and a Jetson whose `vslam.yaml` names the database of a
zone. The two are meant to be about the same zone, or the autopilot is to be
empty. The switch has no coordinator. The Jetson goes first, and nothing takes
it back when a later step fails; that they disagree then is left to the
pre-flight checks.
-/

namespace MowerRover.Cli

open Effects Mavlink Zone ZoneActivate ZoneSelect

/-- A reply of `ssh` that is not a success. -/
structure SshFailure where
  reply : Except PyError SshResult
  failed : ∀ result, reply = .ok result → result.ok = false

/-- How a remote command went, as far as the laptop gets to know. -/
inductive RemoteRun
  /-- it ran to its end and its exit code was reported -/
  | reported (answers : Oracle jetsonSignature) (stdout stderr : String)
  /-- it may have been cut off, or not even started -/
  | lost (answers : Oracle jetsonSignature) (left : Option ℕ) (failure : SshFailure)

namespace RemoteRun

def answers : RemoteRun → Oracle jetsonSignature
  | reported answers _ _ | lost answers _ _ => answers

def left : RemoteRun → Option ℕ
  | reported .. => none
  | lost _ left _ => left

/-- Every exception of the command ends the process with the code 1. -/
def exitCode : Except PyError Unit → ℤ
  | .ok () => 0
  | .error _ => 1

def reply (result : Except PyError Unit) : RemoteRun → Except PyError SshResult
  | reported _ stdout stderr => .ok ⟨exitCode result, stdout, stderr⟩
  | lost _ _ failure => failure.reply

end RemoteRun

/-- The remote shell splits the command line that `ssh` joins without quotes, so
that a zone id loses the newline it may end in. -/
def remoteWord (zoneId : String) : String :=
  if zoneId.toList.getLast? = some '\n' then String.ofList zoneId.toList.dropLast else zoneId

/-- The zone of a remote activation. -/
def activatedZone (argv : List String) : Option String :=
  if argv.take 3 = ["mower-jetson", "zone", "activate"] then argv[3]? else none

/-- Everything but the link: the files of the laptop, the remote runs, and
collaborators that may answer anything. -/
structure Surroundings where
  files : String → YamlFile
  remote : List (Call toolSignature) → RemoteRun
  answers : Oracle toolSignature

structure Rover where
  loop : ClosedLoop
  databasePath : String
  past : List (Call toolSignature)

namespace Surroundings

def remoteActivate (around : Surroundings) (s : Rover) (zoneId : String) :
    Outcome PyError Unit Jetson Empty :=
  (zoneActivate (remoteWord zoneId) "auto").run (jetson (around.remote s.past).answers)
    ⟨s.databasePath, (around.remote s.past).left, []⟩

/-- The answer to a call that is not on the link, and what `vslam.yaml` names after it. -/
def answer (around : Surroundings) (s : Rover) : (op : ToolOp) → toolSignature.Ans op × String
  | .readYaml path => (around.files path, s.databasePath)
  | .ssh argv timeout =>
    match activatedZone argv with
    | some zoneId =>
      let run := around.remoteActivate s zoneId
      ((around.remote s.past).reply run.result, run.state.databasePath)
    | none => (around.answers s.past (.ssh argv timeout), s.databasePath)
  | op => (around.answers s.past op, s.databasePath)

end Surroundings

/-- What a call besides the link does to the client's end of it: a new connection
has received nothing, and waiting for a heartbeat discards what comes before it. -/
def besides (op : ToolOp) (w : World) : World :=
  match op with
  | .mavlinkConnection _ => { w with inbox := [] }
  | .waitHeartbeat _ => { w with inbox := (takeMatch [.heartbeat] w.inbox).2.1 }
  | _ => w

/-- The link and the autopilot move on between any two calls. -/
def rover (around : Surroundings) : Handler toolSignature Rover LinkEvent
  | .link op, s =>
    let answer := closedLoop op s.loop
    (answer.1, ⟨answer.2.1, s.databasePath, ⟨.link op, answer.1⟩ :: s.past⟩, answer.2.2)
  | op, s =>
    let answer := around.answer s op
    (answer.1, ⟨⟨besides op (autopilot.moved s.loop), s.loop.turns.tail⟩, answer.2,
      ⟨op, answer.1⟩ :: s.past⟩, [])

/-- The rover as a client of the link alone sees it. -/
def roverLink (around : Surroundings) : Handler linkSignature Rover LinkEvent :=
  fun op s => rover around (.link op) s

section Agreement

variable (shapely : Shapely) (files : String → YamlFile)

/-- One of the laptop's files is that of the zone. -/
def HasFile (zone : ZoneConfig) : Prop := ∃ path, loadZoneConfig shapely path (files path) =
    .ok zone

/-- The autopilot stores a plan of the zone. -/
def StoresZone (zone : ZoneConfig) (w : World) : Prop :=
  ∃ waypoints missionItems fenceItems rallyItems,
    zoneItems zone waypoints = .ok (missionItems, fenceItems, rallyItems) ∧
      Holds missionItems fenceItems rallyItems w

/-- The autopilot stores nothing, or the zone whose database the Jetson uses. -/
def Agree (databasePath : String) (w : World) : Prop :=
  StoresEmpty w ∨ ∃ zone, HasFile shapely files zone ∧ StoresZone zone w ∧
    databasePath = databaseOf (remoteWord zone.zoneId)

end Agreement

/-- Calls that are neither on the link nor for the Jetson. -/
def IsBeside : ToolOp → Prop
  | .link _ | .ssh _ _ => False
  | _ => True

theorem IsConnecting.isBeside {op : ToolOp} (hop : IsConnecting op) : IsBeside op := by
  cases op with
  | link l => exact hop
  | ssh argv timeout => exact hop
  | _ => trivial

theorem IsBeside.ne_link {op : ToolOp} (hop : IsBeside op) (l : LinkOp) : op ≠ .link l := by
  rintro rfl
  exact hop

section Calls

variable (around : Surroundings) {op : ToolOp} (s : Rover)

theorem rover_loop (hop : ∀ l, op ≠ .link l) :
    (rover around op s).2.1.loop.state = besides op (autopilot.moved s.loop) := by
  cases op with
  | link l => exact absurd rfl (hop l)
  | _ => rfl

theorem rover_past (op : ToolOp) :
    ∃ answer, (rover around op s).2.1.past = ⟨op, answer⟩ :: s.past := by
  cases op <;> exact ⟨_, rfl⟩

theorem besides_eq (op : ToolOp) (w : World) : ∃ got rest, w.inbox = got ++ rest ∧
    besides op w = { w with inbox := rest } := by
  cases op with
  | mavlinkConnection config => exact ⟨w.inbox, [], by simp, rfl⟩
  | waitHeartbeat timeout => exact ⟨_, _, takeMatch_split [.heartbeat] w.inbox, rfl⟩
  | _ => exact ⟨[], w.inbox, rfl, rfl⟩

end Calls

/-- The autopilot is idle with these lists, and the Jetson names this database. -/
structure Before (old : ℕ → List MissionItem) (databasePath : String) (s : Rover) : Prop where
  idle : Idle s.loop.state
  store : s.loop.state.store = old
  path : s.databasePath = databasePath

section Before

variable (around : Surroundings) {old : ℕ → List MissionItem} {databasePath : String}

theorem Before.moved {s : Rover} (hs : Before old databasePath s) :
    Idle (autopilot.moved s.loop) ∧ (autopilot.moved s.loop).store = old := by
  have := autopilot.moved_invariant (I := fun w => Idle w ∧ w.store = s.loop.state.store)
    (fun mv w => Idle.move mv w) ⟨hs.idle, rfl⟩
  exact ⟨this.1, this.2.trans hs.store⟩

theorem Before.rover {s : Rover} (hs : Before old databasePath s) {op : ToolOp}
    (hop : ∀ l, op ≠ .link l) :
    Before old (rover around op s).2.1.databasePath (rover around op s).2.1 := by
  obtain ⟨hidle, hstore⟩ := hs.moved
  obtain ⟨got, rest, hq, heq⟩ := besides_eq op (autopilot.moved s.loop)
  refine ⟨?_, ?_, rfl⟩
  · rw [rover_loop around s hop, heq]
    exact hidle.take hq
  · rw [rover_loop around s hop, heq]
    exact hstore

end Before

section Activation

variable {around : Surroundings} {old : ℕ → List MissionItem} {databasePath : String}

end Activation

section Upload

variable (around : Surroundings) {old : ℕ → List MissionItem} {databasePath : String}

theorem run_roverLink {α : Type} (p : LinkM α) (s : Rover) :
    (p.run (roverLink around) s).result = (p.run closedLoop s.loop).result ∧
      (p.run (roverLink around) s).state.loop = (p.run closedLoop s.loop).state :=
  Program.run_project Rover.loop (fun _ _ => ⟨rfl, rfl⟩) p s

end Upload

theorem zoneItems_lists {zone : ZoneConfig} {waypoints : List LatLon}
    {missionItems fenceItems rallyItems : List MissionItem} (hzone : zone.boundary ≠ [])
    (h : zoneItems zone waypoints = .ok (missionItems, fenceItems, rallyItems)) :
    ZoneLists missionItems fenceItems rallyItems := by
  simp only [zoneItems, bind_eq_ok] at h
  obtain ⟨mission, hmission, fence, hfence, rally, hrally, h⟩ := h
  obtain ⟨rfl, rfl, rfl⟩ : mission = missionItems ∧ fence = fenceItems ∧ rally = rallyItems := by
    simpa using h
  obtain ⟨hmission, hmission'⟩ := zoneToMission_numbered hmission
  obtain ⟨hfence, hfence'⟩ := zoneToFence_numbered hfence
  obtain ⟨hrally, hrally'⟩ := zoneToRally_numbered hrally
  exact ⟨⟨hmission', hmission⟩, ⟨hfence' hzone, hfence⟩, ⟨hrally', hrally⟩⟩

section Switch

variable (shapely : Shapely) (around : Surroundings) (zone : ZoneConfig)
  (old : ℕ → List MissionItem)

variable {around} {old}

end Switch

def southFile : YamlFile :=
  let vertex (lat lon : ℤ) : Yaml := .list [.float (.fin lat), .float (.fin lon)]
  .document (.dict [
    (.str "schema", .str "mower-rover.zone.v1"), (.str "zone_id", .str "south"),
    (.str "name", .str "South Lawn"), (.str "home", vertex 2 2),
    (.str "rally_point", .dict [(.str "lat", .float (.fin 2)), (.str "lon", .float (.fin 3))]),
    (.str "boundary", .list [vertex 2 2, vertex 2 3, vertex 3 3])])

def southZone : ZoneConfig where
  schema := "mower-rover.zone.v1"
  zoneId := "south"
  home := ⟨.fin 2, .fin 2⟩
  rallyPoint := ⟨.fin 2, .fin 3⟩
  boundary := [⟨.fin 2, .fin 2⟩, ⟨.fin 2, .fin 3⟩, ⟨.fin 3, .fin 3⟩]

def southLists : List MissionItem × List MissionItem × List MissionItem :=
  match zoneItems southZone [⟨.fin 3, .fin 2⟩] with
  | .ok lists => lists
  | .error _ => ([], [], [])

/-- A laptop with two zone files, and a Jetson on which every restart of a service
ends with this code. -/
def lawns (restartCode : ℤ) : Surroundings where
  files path :=
    if path = "zones/ne.yaml" then triangleFile (.float (.fin 2))
    else if path = "zones/south.yaml" then southFile else .missing
  remote _ := .reported (fun
    | _, .mkdir _ => .ok ()
    | _, .exists _ => true
    | _, .loadVslamConfig => .ok ⟨databaseOf "south", "localization"⟩
    | _, .saveVslamConfig _ => .ok ()
    | _, .restart _ => .ok restartCode) "" ""
  answers := obliging ⟨1, 1⟩ []

/-- A rover that is set up for the south lawn, with a prompt autopilot. -/
def southRover : Rover where
  loop := ⟨⟨[], [], [], [], fun t => if t = 0 then southLists.1 else if t = 1 then southLists.2.1
    else southLists.2.2, none, false, false⟩, List.replicate 80 ⟨[.handle, .deliver], 9⟩⟩
  databasePath := databaseOf "south"
  past := []

theorem southFile_loads (path : String) :
    loadZoneConfig ⟨fun _ => .ok true⟩ path southFile = .ok southZone := by
  change coerce _ _ = _
  decide +kernel

theorem triangleFile_loads (path : String) :
    loadZoneConfig ⟨fun _ => .ok true⟩ path (triangleFile (.float (.fin 2))) =
      .ok (triangleZone (.fin 2)) := by
  change coerce _ _ = _
  decide +kernel

theorem southLists_eq : zoneItems southZone [⟨.fin 3, .fin 2⟩] = .ok southLists := by
  have hok : (zoneItems southZone [⟨.fin 3, .fin 2⟩]).isOk = true := by decide +kernel
  obtain ⟨lists, hlists⟩ := exists_ok_of_isOk hok
  rw [southLists, hlists]

theorem southRover_agree (restartCode : ℤ) : Agree ⟨fun _ => .ok true⟩ (lawns restartCode).files
    southRover.databasePath southRover.loop.state :=
  .inr ⟨southZone, ⟨"zones/south.yaml", southFile_loads _⟩,
    ⟨_, _, _, _, southLists_eq, rfl, rfl, rfl⟩, by decide⟩

/-- The same rover with an acknowledgement of an earlier transaction still on its
way; it arrives while the mission is uploaded. -/
def staleRover : Rover :=
  { southRover with
    loop := ⟨{ southRover.loop.state with toClient := [.missionAck 0 0] },
      List.replicate 8 ⟨[], 9⟩ ++ List.replicate 80 ⟨[.handle, .deliver], 9⟩⟩ }

/-- On a link that is not quiet even a switch that returns can leave the two in
disagreement: the stale acknowledgement ends the upload of the mission before it
has begun. -/
theorem selectZone_stale_ack :
    let o := (selectZone ⟨fun _ => .ok true⟩ { zoneFile := "zones/ne.yaml", yes := true }).run
      (rover (lawns 0)) staleRover
    o.result.isOk = true ∧
    Agree ⟨fun _ => .ok true⟩ (lawns 0).files staleRover.databasePath staleRover.loop.state ∧
    ¬ Agree ⟨fun _ => .ok true⟩ (lawns 0).files o.state.databasePath o.state.loop.state := by
  intro o
  have hmission : o.state.loop.state.store 0 = [] := by decide +kernel
  refine ⟨by decide +kernel, southRover_agree 0, ?_⟩
  rintro (hempty | ⟨zone, ⟨path, hload⟩, ⟨waypoints, m, f, r, hitems, hholds⟩, -⟩)
  · exact absurd (hempty 1 (by simp)) (by decide +kernel)
  · have hboundary : zone.boundary ≠ [] := by
      have := loadZoneConfig_boundary hload
      exact List.ne_nil_of_length_pos (by omega)
    exact (zoneItems_lists hboundary hitems).mission.1 (hholds.1.symm.trans hmission)

end MowerRover.Cli
