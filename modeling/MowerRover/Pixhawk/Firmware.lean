import MowerRover.Cli.Tool

/-!
# The firmware of the flight controller

Reading the running version and entering the bootloader. The four bytes of
`flight_sw_version` are the version and its kind; a `FirmwareInfo` cannot be
built from anything wider, so its own range checks never fire here.
-/

namespace MowerRover.Pixhawk

open Effects Mavlink Cli

structure FirmwareInfo where
  major : ℕ
  minor : ℕ
  patch : ℕ
  typeCode : ℕ
  typeName : String
  versionString : String
  inRange : major ≤ 255 ∧ minor ≤ 255 ∧ patch ≤ 255 ∧ typeCode ≤ 255

def decodeFlightSwVersion (version : ℕ) : ℕ × ℕ × ℕ × ℕ :=
  ((version >>> 24) &&& 0xFF, (version >>> 16) &&& 0xFF, (version >>> 8) &&& 0xFF,
    version &&& 0xFF)

def typeName (typeCode : ℕ) : String :=
  if typeCode = 0 then "dev"
  else if typeCode = 64 then "alpha"
  else if typeCode = 128 then "beta"
  else if typeCode = 192 then "rc"
  else if typeCode = 255 then "official"
  else s!"unknown-{typeCode}"

def formatVersion : ℕ × ℕ × ℕ × ℕ → String
  | (major, minor, patch, typeCode) => s!"{major}.{minor}.{patch}-{typeName typeCode}"

theorem and_255_le (n : ℕ) : n &&& 0xFF ≤ 255 := Nat.and_le_right

def firmwareInfo (flightSwVersion : ℕ) : FirmwareInfo where
  major := (decodeFlightSwVersion flightSwVersion).1
  minor := (decodeFlightSwVersion flightSwVersion).2.1
  patch := (decodeFlightSwVersion flightSwVersion).2.2.1
  typeCode := (decodeFlightSwVersion flightSwVersion).2.2.2
  typeName := typeName (decodeFlightSwVersion flightSwVersion).2.2.2
  versionString := formatVersion (decodeFlightSwVersion flightSwVersion)
  inRange := ⟨and_255_le _, and_255_le _, and_255_le _, and_255_le _⟩

def mavCmdRequestAutopilotCapabilities : ℕ := 520
def mavCmdPreflightRebootShutdown : ℕ := 246

/-- `None` when the autopilot does not answer. -/
def readRunningVersion (conn : Conn) : LinkM (Option FirmwareInfo) := do
  send conn (.commandLong mavCmdRequestAutopilotCapabilities 0 [1, 0, 0, 0, 0, 0, 0])
  match ← recvMatch [.autopilotVersion] with
  | some (.autopilotVersion flightSwVersion) => pure (some (firmwareInfo flightSwVersion))
  | _ => pure none

/-- The command that puts the autopilot into its bootloader. -/
def rebootCommand : Msg := .commandLong mavCmdPreflightRebootShutdown 0 [3, 0, 0, 0, 0, 0, 0]

def rebootToBootloader (conn : Conn) : ToolM Unit := do
  liftLink (send conn rebootCommand)
  ask .close

end MowerRover.Pixhawk
