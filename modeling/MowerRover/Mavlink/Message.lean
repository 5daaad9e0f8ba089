import MowerRover.Effects.Schedule
import MowerRover.Numeric.PyFloat
import MowerRover.Errors

/-!
# MAVLink messages and the client's end of a link

Messages carry the fields the code reads or writes. A client sends, polls with
`recv_match`, and measures its waits with the clock. A wait loop tests the
clock once per round; the surroundings answer with the number of rounds they
let pass before the deadline.
-/

namespace MowerRover.Mavlink

open Effects Numeric

/-- The layout of `MISSION_ITEM_INT`, shared by missions, fences and rally points. -/
structure MissionItem where
  seq : ℕ
  frame : ℕ
  command : ℕ
  param1 : PyFloat := .fin 0
  param2 : PyFloat := .fin 0
  param3 : PyFloat := .fin 0
  param4 : PyFloat := .fin 0
  x : ℤ := 0
  y : ℤ := 0
  z : PyFloat := .fin 0
  missionType : ℕ := 0
  autocontinue : ℕ := 1
  current : ℕ := 0
  deriving DecidableEq, Repr

/-- A parameter name as it comes off the wire: packed bytes, or already a text. -/
inductive ParamId
  | bytes (b : List UInt8)
  | text (s : String)
  deriving DecidableEq, Repr

inductive MsgType
  | heartbeat
  | missionCount
  | missionRequest
  | missionRequestInt
  | missionItemInt
  | missionAck
  | missionRequestList
  | missionClearAll
  | missionCurrent
  | missionSetCurrent
  | paramValue
  | paramSet
  | commandLong
  | autopilotVersion
  | other (name : String)
  deriving DecidableEq, Repr

inductive Msg
  | heartbeat (srcSystem srcComponent baseMode : ℕ)
  | missionCount (count missionType : ℕ)
  | missionRequest (seq missionType : ℕ)
  | missionRequestInt (seq missionType : ℕ)
  | missionItemInt (item : MissionItem)
  | missionAck (type missionType : ℕ)
  | missionRequestList (missionType : ℕ)
  | missionClearAll (missionType : ℕ)
  | missionCurrent (seq : ℕ)
  | missionSetCurrent (seq : ℕ)
  | paramValue (paramId : ParamId) (value : PyFloat) (paramCount : ℕ)
  | paramSet (paramId : List UInt8) (value : PyFloat)
  | commandLong (command confirmation : ℕ) (params : List ℕ)
  | autopilotVersion (flightSwVersion : ℕ)
  | other (name : String)
  deriving DecidableEq, Repr

def Msg.getType : Msg → MsgType
  | .heartbeat .. => .heartbeat
  | .missionCount .. => .missionCount
  | .missionRequest .. => .missionRequest
  | .missionRequestInt .. => .missionRequestInt
  | .missionItemInt .. => .missionItemInt
  | .missionAck .. => .missionAck
  | .missionRequestList .. => .missionRequestList
  | .missionClearAll .. => .missionClearAll
  | .missionCurrent _ => .missionCurrent
  | .missionSetCurrent _ => .missionSetCurrent
  | .paramValue .. => .paramValue
  | .paramSet .. => .paramSet
  | .commandLong .. => .commandLong
  | .autopilotVersion .. => .autopilotVersion
  | .other name => .other name

/-- A connection, as far as the code looks at it: whom it talks to. -/
structure Conn where
  targetSystem : ℕ
  targetComponent : ℕ
  deriving DecidableEq, Repr

inductive LinkOp
  | send (target : Conn) (msg : Msg)
  | recvMatch (types : List MsgType)
  | polls (timeout : ℚ)

abbrev linkSignature : Signature where
  Op := LinkOp
  Ans
    | .send _ _ => Unit
    | .recvMatch _ => Option Msg
    | .polls _ => ℕ

abbrev LinkM := Program linkSignature PyError

def send (conn : Conn) (msg : Msg) : LinkM Unit :=
    Program.perform (S := linkSignature) (.send conn msg)

def recvMatch (types : List MsgType) : LinkM (Option Msg) :=
  Program.perform (S := linkSignature) (.recvMatch types)

/-- Start the clock of a wait: the number of rounds before `timeout` seconds are over. -/
def polls (timeout : ℚ) : LinkM ℕ := Program.perform (S := linkSignature) (.polls timeout)

/-- `while time.time() - start < timeout: recv_match(types)`, left with the
first answer that `accept` takes; messages it does not take are dropped. -/
def waitFor {β : Type} (types : List MsgType) (accept : Msg → Option β) : ℕ → LinkM (Option β)
  | 0 => pure none
  | rounds + 1 => do
    match ← recvMatch types with
    | none => waitFor types accept rounds
    | some msg =>
      match accept msg with
      | some b => pure (some b)
      | none => waitFor types accept rounds

def waitWithin {β : Type} (timeout : ℚ) (types : List MsgType) (accept : Msg → Option β) :
    LinkM (Option β) := do
  let rounds ← polls timeout
  waitFor types accept rounds

end MowerRover.Mavlink
