import MowerRover.Pixhawk.Firmware

/-!
# `mower-jetson pixhawk firmware-update`

Check versions, download and validate the image, snapshot the parameters, ask
the operator, check that nobody is armed, enter the bootloader, flash, read the
new version. Every step opens a link of its own; the one on which the armed
check is made is closed before the one for the reboot is opened.
-/

namespace MowerRover.Cli

open Effects Mavlink Pixhawk

structure UpdateOptions where
  endpoint : String := "/dev/pixhawk"
  baud : ℕ := 0
  track : String := "stable"
  offline : Bool := false
  force : Bool := false
  dryRun : Bool := false
  yes : Bool := false
  deriving DecidableEq, Repr

namespace FirmwareUpdate

def checkNotArmed : LinkM Unit := refuseArmed "FC is armed — cannot flash firmware. Disarm first."

def config (options : UpdateOptions) : ConnectionConfig :=
  { endpoint := options.endpoint, baud := options.baud }

/-- `a <= b` for version tuples. -/
def versionLe : ℤ × ℤ × ℤ → ℤ × ℤ × ℤ → Bool
  | (a, b, c), (a', b', c') => a < a' ∨ (a = a' ∧ (b < b' ∨ (b = b' ∧ c ≤ c')))

/-- Steps 1 and 2: the running version, and the latest one on the server. -/
def readVersions (options : UpdateOptions) : ToolM (FirmwareInfo × (ℤ × ℤ × ℤ)) := do
  match ← orExit "" (openLink (config options) fun conn => liftLink (readRunningVersion conn)) with
  | none => throw (.exit 1 "")
  | some running =>
    if options.offline then throw (.exit 1 "")
    else
      match ← ask (.checkRemoteVersion options.track) with
      | none => throw (.exit 1 "")
      | some latest => pure (running, latest)

/-- Steps 4 and 5. -/
def fetchImage (options : UpdateOptions) (latest : ℤ × ℤ × ℤ) : ToolM String := do
  match ← ask (.downloadFirmware options.track latest "/var/cache/mower/firmware") with
  | none => throw (.exit 1 "")
  | some apjPath =>
    orExit "" (do raised (← ask (.validateApj apjPath)))
    pure apjPath

/-- Step 6: a failed snapshot is no more than a warning. -/
def snapshotParams (options : UpdateOptions) : ToolM Unit :=
  tryCatch
    (do
      openLink (config options) fun _ => do raised (← ask .fetchParams)
      raised (← ask .writeJsonSnapshot))
    fun _ => pure ()

/-- Steps 8 and 9. -/
def enterBootloader (options : UpdateOptions) : ToolM Unit := do
  orExit "" (openLink (config options) fun _ => liftLink checkNotArmed)
  orExit "" (openLink (config options) rebootToBootloader)

/-- Steps 10 to 12; a version that cannot be read back is no more than a warning. -/
def flashAndVerify (options : UpdateOptions) (apjPath : String) : ToolM Unit := do
  let port ← orExit "" (do raised (← ask (.waitForBootloader options.endpoint)))
  let result ← ask (.flashFirmware port apjPath)
  if result.success then
    ask (.sleep 5)
    tryCatch
      (do
        let _ ← openLink (config options) fun conn => liftLink (readRunningVersion conn)
        pure ())
      fun _ => pure ()
  else throw (.exit 1 "")

/-- The confirmation of step 7; a dry run ends here. -/
def confirmed (options : UpdateOptions) (running : FirmwareInfo) (latest : ℤ × ℤ × ℤ) :
    ToolM Bool :=
  if options.dryRun then pure false
  else if options.yes then pure true
  else ask (.prompt (s!"Flash firmware {latest.1}.{latest.2.1}.{latest.2.2} to Pixhawk" ++
    s!" (replacing {running.versionString})?"))

end FirmwareUpdate

open FirmwareUpdate

def firmwareUpdate (options : UpdateOptions) : ToolM Unit := do
  let (running, latest) ← readVersions options
  if !options.force && versionLe latest (running.major, running.minor, running.patch) then pure ()
  else
    let apjPath ← fetchImage options latest
    snapshotParams options
    if ← confirmed options running latest then
      enterBootloader options
      flashAndVerify options apjPath
    else pure ()

end MowerRover.Cli
