import MowerRover.Mavlink.MissionVerify

/-!
# A faithful autopilot at the other end

The client and an autopilot joined by two FIFO queues. The autopilot keeps one
list per mission type and takes part in one upload at a time: it asks for the
items in order, stores the one it expects and ignores any other, and
acknowledges once after the last. It answers list and item requests from its
store. Between two calls of the client the autopilot may handle messages, the
link may deliver them, and requests, counts and items that were emitted before
may be delivered again. Acknowledgements are delivered once.
-/

namespace MowerRover.Mavlink

open Effects

structure World where
  /-- delivered, not yet taken by the client -/
  inbox : List Msg
  /-- on the way to the client -/
  toClient : List Msg
  /-- on the way to the autopilot -/
  toAutopilot : List Msg
  /-- everything the autopilot has sent so far -/
  emitted : List Msg
  store : ℕ → List MissionItem
  /-- the mission type and the length of the upload in progress -/
  upload : Option (ℕ × ℕ)
  /-- ask with `MISSION_REQUEST`, as older autopilots do -/
  legacy : Bool := false
  /-- a cleared mission keeps its home point -/
  keepsHome : Bool := false

namespace World

def emit (w : World) (m : Msg) : World :=
  { w with toClient := w.toClient ++ [m], emitted := w.emitted ++ [m] }

def request (w : World) (seq t : ℕ) : World :=
  w.emit (if w.legacy then .missionRequest seq t else .missionRequestInt seq t)

def setStore (w : World) (t : ℕ) (items : List MissionItem) : World :=
  { w with store := Function.update w.store t items }

/-- What is left of a list of this type when it is cleared. -/
def cleared (w : World) (t : ℕ) : List MissionItem :=
  if t = 0 ∧ w.keepsHome then (w.store t).take 1 else []

/-- An item of the upload in progress; any item but the expected one is ignored. -/
def storeItem (w : World) (item : MissionItem) : World :=
  match w.upload with
  | none => w
  | some (t, n) =>
    if item.missionType = t ∧ item.seq = (w.store t).length then
      let stored := w.setStore t (w.store t ++ [item])
      if (stored.store t).length < n then stored.request (stored.store t).length t
      else { stored with upload := none }.emit (.missionAck 0 t)
    else w

/-- The autopilot handles one message. -/
def receive (w : World) : Msg → World
  | .missionCount n t => ({ w with upload := some (t, n) }.setStore t []).request 0 t
  | .missionItemInt item => w.storeItem item
  | .missionRequestList t => w.emit (.missionCount (w.store t).length t)
  | .missionRequestInt k t =>
    match (w.store t)[k]? with
    | some item => w.emit (.missionItemInt item)
    | none => w
  | .missionClearAll t =>
    let upload := if (w.upload.map Prod.fst) = some t then none else w.upload
    ({ w with upload := upload }.setStore t (w.cleared t)).emit (.missionAck 0 t)
  | _ => w

end World

inductive Move
  | deliver
  | handle
  | again (i : ℕ)
  | telemetry (m : Msg)
  deriving DecidableEq, Repr

/-- Messages outside the mission protocol. -/
def Msg.isTelemetry : Msg → Bool
  | .heartbeat .. | .missionCurrent _ | .paramValue .. | .autopilotVersion _ | .other _ => true
  | _ => false

namespace World

def move (w : World) : Move → World
  | .deliver =>
    match w.toClient with
    | [] => w
    | m :: ms => { w with inbox := w.inbox ++ [m], toClient := ms }
  | .handle =>
    match w.toAutopilot with
    | [] => w
    | m :: ms => { w with toAutopilot := ms }.receive m
  | .again i =>
    match w.emitted[i]? with
    | some m =>
      if m.getType = .missionAck then w else { w with toClient := w.toClient ++ [m] }
    | none => w
  | .telemetry m => if m.isTelemetry then { w with toClient := w.toClient ++ [m] } else w

end World

def autopilot : Peer Move World where
  move := World.move
  send w _ m := { w with toAutopilot := w.toAutopilot ++ [m] }
  inbox := World.inbox
  leave w rest := { w with inbox := rest }

abbrev ClosedLoop := Scheduled Move World

abbrev closedLoop : Handler linkSignature ClosedLoop LinkEvent := autopilot.link

theorem isLink_closedLoop : IsLink closedLoop := autopilot.isLink

end MowerRover.Mavlink
