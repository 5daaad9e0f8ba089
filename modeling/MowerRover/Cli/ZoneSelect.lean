import MowerRover.Cli.Tool
import MowerRover.Cli.ZoneUpload
import MowerRover.Zone.MissionItems

/-!
# `mower zone select`

The laptop loads the zone, checks that nobody is armed, has the Jetson switch
its map, plans the waypoints and uploads mission, fence and rally points. The
remote switch comes before everything that can still go wrong with the plan.
-/

namespace MowerRover.Cli

open Effects Mavlink Zone

structure SelectOptions where
  zoneFile : String
  mavlinkEndpoint : String := "udp:127.0.0.1:14550"
  skipSlam : Bool := false
  dryRun : Bool := false
  yes : Bool := false
  deriving DecidableEq, Repr

namespace ZoneSelect

def checkNotArmed : LinkM Unit := refuseArmed "FC is armed — cannot switch zones. Disarm first."

def confirmZoneSelect (dryRun assumeYes : Bool) : ToolM Unit :=
  requiresConfirmation "This will upload new mission/fence/rally to the flight controller"
    dryRun assumeYes

def activateZoneOnJetson (zoneId : String) : ToolM Unit := do
  let result ← raised (← ask (.ssh ["mower-jetson", "zone", "activate", zoneId] 30))
  if result.ok then pure () else throw (.exit 1 "")

/-- The three lists that make up a zone on the flight controller. -/
def zoneItems (zone : ZoneConfig) (waypoints : List LatLon) :
    Except PyError (List MissionItem × List MissionItem × List MissionItem) := do
  let missionItems ← zoneToMission zone waypoints
  let fenceItems ← zoneToFence zone
  let rallyItems ← zoneToRally zone
  pure (missionItems, fenceItems, rallyItems)

/-- From the planner to the snapshot, once the Jetson has switched. -/
def planAndUpload (conn : Conn) (zone : ZoneConfig) : ToolM Unit := do
  let waypoints ← raised (← ask (.generateWaypoints zone))
  if waypoints = [] then throw (.exit 1 "1")
  else
    let (missionItems, fenceItems, rallyItems) ← raised (zoneItems zone waypoints)
    liftLink (uploadZoneAtomically conn missionItems fenceItems rallyItems)
    raised (← ask
      (.writeZoneSnapshot zone.zoneId waypoints.length fenceItems.length zone.rallyPoint))

/-- What happens on the open link. -/
def switchZone (zone : ZoneConfig) (skipSlam : Bool) (conn : Conn) : ToolM Unit := do
  liftLink checkNotArmed
  if skipSlam then pure () else activateZoneOnJetson zone.zoneId
  planAndUpload conn zone

def planOnly (zone : ZoneConfig) : ToolM Unit := do
  let waypoints ← raised (← ask (.generateWaypoints zone))
  let _ ← raised (zoneItems zone waypoints)
  pure ()

end ZoneSelect

open ZoneSelect

def selectZone (shapely : Shapely) (options : SelectOptions) : ToolM Unit := do
  confirmZoneSelect options.dryRun options.yes
  let file ← ask (.readYaml options.zoneFile)
  let zone ← orExit "1" (raised (loadZoneConfig shapely options.zoneFile file))
  if options.dryRun then planOnly zone
  else openLink { endpoint := options.mavlinkEndpoint } (switchZone zone options.skipSlam)

end MowerRover.Cli
