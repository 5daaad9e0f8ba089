import MowerRover.Mavlink.Message

/-!
# The mission protocol

Upload, download, clear and round-trip verification of missions, fences and
rally points, as the client runs them. Every loop of the source is bounded by
a deadline; the rounds it is granted are the recursion argument here, and
running out of them is the source's timeout.
-/

namespace MowerRover.Mavlink

open Effects Numeric

/-- The message types the request loop asks for. -/
def uploadTypes : List MsgType := [.missionRequestInt, .missionRequest, .missionAck]

/-- Send the requested item and go on with the loop. -/
def answerRequest (conn : Conn) (items : List MissionItem) (seq : ℕ) (loop : LinkM Bool) :
    LinkM Bool :=
  if h : seq < items.length then do
    send conn (.missionItemInt items[seq])
    loop
  else throw (.missionUpload s!"Requested seq {seq} >= item count {items.length}")

/-- The loop that answers item requests. `true` means that an accepting
`MISSION_ACK` ended the whole upload, `false` that every item has been sent. -/
def requestLoop (conn : Conn) (items : List MissionItem) : ℕ → Finset ℕ → LinkM Bool
  | 0, itemsSent =>
    if itemsSent.card < items.length then
      throw (.missionUpload "Timeout waiting for MISSION_REQUEST_INT after 10.0s")
    else pure false
  | rounds + 1, itemsSent =>
    if itemsSent.card < items.length then do
      match ← recvMatch uploadTypes with
      | none => requestLoop conn items rounds itemsSent
      -- the acknowledgement is not compared with the mission type of this upload
      | some (.missionAck type _) =>
        if type = 0 then pure true
        else throw (.missionUpload s!"Mission upload rejected with ACK type {type}")
      | some (.missionRequestInt seq _) | some (.missionRequest seq _) =>
        answerRequest conn items seq (requestLoop conn items rounds (insert seq itemsSent))
      | some _ => requestLoop conn items rounds itemsSent
    else pure false

def ackType : Msg → Option ℕ
  | .missionAck type _ => some type
  | _ => none

def uploadMission (conn : Conn) (items : List MissionItem) (missionType : ℕ) : LinkM Unit :=
  if items = [] then pure ()
  else do
    send conn (.missionCount items.length missionType)
    let rounds ← polls 10
    if ← requestLoop conn items rounds ∅ then pure ()
    else
      match ← waitWithin 5 [.missionAck] ackType with
      | some type =>
        if type = 0 then pure ()
        else throw (.missionUpload s!"Mission upload rejected with final ACK type {type}")
      | none => throw (.missionUpload "Timeout waiting for final MISSION_ACK after 5.0s")

def countOf (missionType : ℕ) : Msg → Option ℕ
  | .missionCount count t => if t = missionType then some count else none
  | _ => none

/-- The item `seq` of this transaction, rebuilt field by field. -/
def itemOf (missionType seq : ℕ) : Msg → Option MissionItem
  | .missionItemInt msg =>
    if msg.seq = seq ∧ msg.missionType = missionType then
      some { seq := msg.seq, frame := msg.frame, command := msg.command
             param1 := msg.param1, param2 := msg.param2
             param3 := msg.param3, param4 := msg.param4
             x := msg.x, y := msg.y, z := msg.z
             missionType := msg.missionType
             autocontinue := msg.autocontinue, current := msg.current }
    else none
  | _ => none

/-- `for seq in range(item_count)`: request an item, wait for it, file it. -/
def requestItems (conn : Conn) (missionType : ℕ) :
    List ℕ → List (Option MissionItem) → LinkM (List (Option MissionItem))
  | [], items => pure items
  | seq :: seqs, items => do
    send conn (.missionRequestInt seq missionType)
    match ← waitWithin 5 [.missionItemInt] (itemOf missionType seq) with
    | some item => requestItems conn missionType seqs (items.set seq (some item))
    | none =>
      throw (.missionDownload s!"Timeout waiting for MISSION_ITEM_INT seq {seq} after 5.0s")

def downloadMission (conn : Conn) (missionType : ℕ) : LinkM (List (Option MissionItem)) := do
  send conn (.missionRequestList missionType)
  match ← waitWithin 10 [.missionCount] (countOf missionType) with
  | none => throw (.missionDownload "Timeout waiting for MISSION_COUNT after 10.0s")
  | some itemCount =>
    if itemCount = 0 then pure []
    else do
      let items ← requestItems conn missionType (List.range itemCount)
        (List.replicate itemCount none)
      send conn (.missionAck 0 missionType)
      pure items

def ackOf (missionType : ℕ) : Msg → Option ℕ
  | .missionAck type t => if t = missionType then some type else none
  | _ => none

/-- The check after a clear: nothing may be left, save the home point of a mission. -/
def verifyCleared (conn : Conn) (missionType : ℕ) : LinkM Unit :=
  tryCatch
    (do
      let items ← downloadMission conn missionType
      if missionType = 0 ∧ items.length ≤ 1 then pure ()
      else if missionType ≠ 0 ∧ items.length = 0 then pure ()
      else
        throw (.missionUpload s!"Clear verification failed: {items.length} items still present"))
    fun
      | .missionDownload message => throw (.missionUpload s!"Clear verification failed: {message}")
      | error => throw error

def clearMission (conn : Conn) (missionType : ℕ) : LinkM Unit := do
  send conn (.missionClearAll missionType)
  match ← waitWithin 5 [.missionAck] (ackOf missionType) with
  | none => throw (.missionUpload "Timeout waiting for MISSION_ACK after clear operation")
  | some type =>
    if type = 0 then verifyCleared conn missionType
    else throw (.missionUpload s!"Mission clear rejected with ACK type {type}")

inductive ItemField
  | seq | frame | command | param1 | param2 | param3 | param4
  | x | y | z | missionType | autocontinue | current
  deriving DecidableEq, Repr

/-- The tolerance of the comparison of float fields, the double `1e-7`. -/
def tolerance : ℚ := 944473296573929 / 2 ^ 73

example : PyFloat.ofRat (1 / 10 ^ 7) = .fin tolerance := by decide +kernel

/-- One test of the comparison and the field it reports. -/
def reportIf (differs : Bool) (field : ItemField) : List ItemField :=
  if differs then [field] else []

/-- The fields in which a downloaded item differs from the expected one. -/
def fieldMismatches (exp got : MissionItem) : List ItemField :=
  List.flatten [
    reportIf (exp.seq != got.seq) .seq,
    reportIf (exp.frame != got.frame) .frame,
    reportIf (exp.command != got.command) .command,
    reportIf (exp.param1.exceeds tolerance got.param1) .param1,
    reportIf (exp.param2.exceeds tolerance got.param2) .param2,
    reportIf (exp.param3.exceeds tolerance got.param3) .param3,
    reportIf (exp.param4.exceeds tolerance got.param4) .param4,
    reportIf (exp.x != got.x) .x,
    reportIf (exp.y != got.y) .y,
    reportIf (exp.z.exceeds tolerance got.z) .z,
    reportIf (exp.missionType != got.missionType) .missionType,
    reportIf (exp.autocontinue != got.autocontinue) .autocontinue,
    reportIf (exp.current != got.current) .current]

/-- The comparison loop. A hole left in the downloaded list has no attributes. -/
def mismatches : List (MissionItem × Option MissionItem) → Except PyError (List ItemField)
  | [] => pure []
  | (_, none) :: _ => throw (.attribute "'NoneType' object has no attribute 'seq'")
  | (exp, some got) :: rest => do
    let others ← mismatches rest
    pure (fieldMismatches exp got ++ others)

def verifyRoundTrip (conn : Conn) (expected : List MissionItem) (missionType : ℕ) :
    LinkM Bool := do
  let downloaded ← tryCatch (some <$> downloadMission conn missionType) fun
    | .missionDownload _ => pure none
    | error => throw error
  match downloaded with
  | none => pure false
  | some downloaded =>
    if downloaded.length ≠ expected.length then pure false
    else
      match mismatches (expected.zip downloaded) with
      | .ok found => pure found.isEmpty
      | .error error => throw error

end MowerRover.Mavlink
