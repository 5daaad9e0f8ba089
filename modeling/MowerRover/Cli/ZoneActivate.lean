import MowerRover.Effects.Trace
import MowerRover.Zone.Config

/-!
# `mower-jetson zone activate`

The Jetson's half of a zone switch: point `vslam.yaml` at the zone's database,
then restart the services. A restart that fails is reported, with the file
already saved. The command may also be cut off, when the laptop stops waiting.
-/

namespace MowerRover.Cli

open Effects Zone

/-- The settings that the command changes; it carries the others along. -/
structure VslamConfig where
  databasePath : String
  slamMode : String
  deriving DecidableEq, Repr

inductive JetsonOp
  | mkdir (path : String)
  | exists (path : String)
  | loadVslamConfig
  | saveVslamConfig (config : VslamConfig)
  /-- the return code of `systemctl restart` -/
  | restart (service : String)

abbrev jetsonSignature : Signature where
  Op := JetsonOp
  Ans
    | .mkdir _ => Except PyError Unit
    | .exists _ => Bool
    | .loadVslamConfig => Except PyError VslamConfig
    | .saveVslamConfig _ => Except PyError Unit
    | .restart _ => Except PyError ℤ

abbrev JetsonM := Program jetsonSignature PyError

namespace ZoneActivate

def onJetson (op : JetsonOp) : JetsonM (jetsonSignature.Ans op) :=
  Program.perform (S := jetsonSignature) op

def zoneDir (zoneId : String) : String := s!"/var/lib/mower/zones/{zoneId}"

/-- The database of a zone, as `vslam.yaml` names it. -/
def databaseOf (zoneId : String) : String := zoneDir zoneId ++ "/rtabmap.db"

def actualSlamMode (slamMode dbPath : String) : JetsonM String := do
  if slamMode = "auto" then
    if ← onJetson (.exists dbPath) then pure "localization" else pure "mapping"
  else pure slamMode

def restartServices : List String → JetsonM Unit
  | [] => pure ()
  | service :: services => do
    let returncode ← Program.ofExcept (← onJetson (.restart service))
    if returncode ≠ 0 then throw (.exit 1 "") else restartServices services

/-- The part under `try`. -/
def updateConfig (dbPath slamMode : String) : JetsonM Unit := do
  let config ← Program.ofExcept (← onJetson .loadVslamConfig)
  Program.ofExcept (← onJetson
    (.saveVslamConfig { config with databasePath := dbPath, slamMode := slamMode }))
  restartServices ["mower-vslam.service", "mower-vslam-bridge.service"]

end ZoneActivate

open ZoneActivate

def zoneActivate (zoneId slamMode : String) : JetsonM Unit := do
  if !zoneIdMatches zoneId then throw (.exit 1 "")
  else if slamMode ∉ ["auto", "mapping", "localization"] then throw (.exit 1 "")
  else
    Program.ofExcept (← onJetson (.mkdir (zoneDir zoneId)))
    let mode ← actualSlamMode slamMode (databaseOf zoneId)
    tryCatch (updateConfig (databaseOf zoneId) mode) fun _ => throw (.exit 1 "")

/-- What `vslam.yaml` names, how many calls are left before the command is cut
off, and what has been called. -/
structure Jetson where
  databasePath : String
  left : Option ℕ
  past : List (Call jetsonSignature)

def Jetson.cutOff (j : Jetson) : Bool := j.left = some 0

/-- A call after the cut has no effect, and its answer does not matter. -/
def jetson (answers : Oracle jetsonSignature) : Handler jetsonSignature Jetson Empty := fun op j =>
  let answer := answers j.past op
  let called : Jetson := { j with left := j.left.map (· - 1), past := ⟨op, answer⟩ :: j.past }
  (answer,
    match op, answer with
    | .saveVslamConfig config, .ok () =>
      if j.cutOff then called else { called with databasePath := config.databasePath }
    | _, _ => called, [])

section Names

variable {answers : Oracle jetsonSignature} {old new : String} {saved : Prop}

end Names

end MowerRover.Cli
