import MowerRover.Effects.Program
import MowerRover.Effects.Schedule
import MowerRover.Effects.Hoare
import MowerRover.Effects.Trace
import MowerRover.Numeric.Rounding
import MowerRover.Numeric.PyFloat
import MowerRover.Errors
import MowerRover.Text
import MowerRover.Yaml
import MowerRover.Mavlink.Message
import MowerRover.Mavlink.Link
import MowerRover.Mavlink.Mission
import MowerRover.Mavlink.MissionDownload
import MowerRover.Mavlink.MissionUpload
import MowerRover.Mavlink.MissionVerify
import MowerRover.Mavlink.Answers
import MowerRover.Mavlink.Autopilot
import MowerRover.Mavlink.RoundTrip
import MowerRover.Zone.Config
import MowerRover.Zone.MissionItems
import MowerRover.Zone.WireFormat
import MowerRover.Params.Mav
import MowerRover.Params.Store
import MowerRover.Cli.ZoneUpload
import MowerRover.Cli.Tool
import MowerRover.Pixhawk.Firmware
import MowerRover.Cli.ZoneSelect
import MowerRover.Cli.FirmwareUpdate
import MowerRover.Mavlink.Clearing
import MowerRover.Cli.ArmedGuard
import MowerRover.Cli.ZoneActivate
import MowerRover.Cli.ZoneStored
import MowerRover.Cli.ZoneSwitch
import MowerRover.Numeric.Bytes
import MowerRover.Numeric.SignedFloat
import MowerRover.Numeric.StructFormat
import MowerRover.Vslam.Pose
import MowerRover.Vslam.PoseStream
import MowerRover.Vslam.Bridge
import MowerRover.Vslam.Covariance
import MowerRover.Mavlink.Connection
import MowerRover.Params.ParamSet
import MowerRover.Params.Diff
import MowerRover.Params.Baseline
import MowerRover.Params.Fetch
import MowerRover.Pixhawk.Sync
import MowerRover.Pixhawk.SyncConfirmed
import MowerRover.Vslam.LuaDeploy
import MowerRover.Pixhawk.SyncLua
import MowerRover.Dict
import MowerRover.Graph.DepthFirst
import MowerRover.Probe.Registry
import MowerRover.Probe.RunChecks
import MowerRover.Probe.Verdicts
import MowerRover.Vslam.SourceSwitch
import MowerRover.Numeric.Double
import MowerRover.Json.Numeral
import MowerRover.Json.FloatRepr
import MowerRover.Json.Strings
import MowerRover.Json.Dumps
import MowerRover.Json.RoundTrip
import MowerRover.Json.Width
import MowerRover.Kiosk.State
import MowerRover.Kiosk.Telemetry
import MowerRover.Kiosk.App
import MowerRover.Kiosk.JsonParser
import MowerRover.Kiosk.Delivery
import MowerRover.Kiosk.ServiceStatus
import MowerRover.Numeric.Framing
import MowerRover.Kiosk.SocketClient
import MowerRover.Kiosk.FrameStream
import MowerRover.Effects.History
import MowerRover.Kiosk.Renderer
import MowerRover.Kiosk.Overlay
import MowerRover.Kiosk.Staleness
import MowerRover.Numeric.Limits
import MowerRover.Zone.Encodable
import MowerRover.Params.Patch
import MowerRover.Params.Received
import MowerRover.Params.ParamFile
import MowerRover.Effects.Guard
import MowerRover.Params.Apply
import MowerRover.Words
import MowerRover.Transport.Ssh
import MowerRover.CommandLine
import MowerRover.Cli.PixhawkLaptop
import MowerRover.Cli.Bringup
import MowerRover.Cli.BringupRun
import MowerRover.Cli.BringupParallel
import MowerRover.Config.Vslam
import MowerRover.Vslam.SlamConfig
import MowerRover.Probe.VslamFile
import MowerRover.YamlPath
import MowerRover.Cli.ZoneFile
import MowerRover.Cli.ZoneFrame
import MowerRover.Params.ParmText
import MowerRover.Params.ParmConcat
import MowerRover.Demands
import MowerRover.Zone.Conversions
import MowerRover.Cli.ZoneId
import MowerRover.Blocks
import MowerRover.Zone.FenceCode
import MowerRover.Probe.FenceMatch
import MowerRover.Cli.ZoneResume
import MowerRover.Numeric.Steps
import MowerRover.Zone.Planner
import MowerRover.Zone.Rectangles
import MowerRover.Zone.SweepLines
import MowerRover.Zone.HeadlandGap
import MowerRover.Zone.ExactShapely
import MowerRover.Zone.Clearance
import MowerRover.Zone.Legs
import MowerRover.Zone.SweepCount
import MowerRover.Vslam.VoteMajority
import MowerRover.Zone.TurnedBack
import MowerRover.Zone.FillPlanned
import MowerRover.Zone.Serpentine
import MowerRover.Assignments
import MowerRover.Vslam.ConfigFailure
import MowerRover.Config.Jetson
import MowerRover.GeoJson
import MowerRover.Kiosk.RecvBuffer
import MowerRover.Zone.Geojson
import MowerRover.Cli.FirmwareFlash
import MowerRover.Effects.Periodic
import MowerRover.Vslam.SlamLoop
import MowerRover.Effects.Milestones
import MowerRover.Vslam.HealthListener
import MowerRover.Vslam.BridgeReports
import MowerRover.Service.Daemon
import MowerRover.Params.Normal
import MowerRover.Cli.ParamsApply
import MowerRover.Kiosk.Server
import MowerRover.Kiosk.Watchdog
import MowerRover.Zone.MultiGeojson
import MowerRover.Json.Loads
import MowerRover.Params.Snapshot
import MowerRover.Cli.ParamsFiles
import MowerRover.Json.FixedPoint
import MowerRover.Zone.WaypointFile
import MowerRover.Pixhawk.Apj
import MowerRover.Effects.Pipes
import MowerRover.Transport.Streaming
import MowerRover.Effects.Window
import MowerRover.Vslam.Health
import MowerRover.Cli.Setup
import MowerRover.Cli.SetupRun
