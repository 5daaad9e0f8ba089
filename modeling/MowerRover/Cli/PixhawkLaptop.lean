import MowerRover.CommandLine
import MowerRover.Yaml

/-!
# The laptop's firmware commands

`mower pixhawk firmware-*` runs the command of the same name on the Jetson. The
laptop leaves out an option whose value is its own default and puts `--dry-run`
behind the command; the Jetson has defaults of its own, and takes `--dry-run`
only in front. Of the Jetson's commands these three are modelled.
-/

namespace MowerRover.Cli.PixhawkLaptop

open CommandLine

structure FirmwareCheck where
  track : String := "latest"
  offline : Bool := false
  json : Bool := false
  port : String := "/dev/ttyACM0"
  deriving DecidableEq, Repr

structure FirmwareUpdate where
  track : String := "latest"
  yes : Bool := false
  force : Bool := false
  json : Bool := false
  port : String := "/dev/ttyACM0"
  dryRun : Bool := false
  deriving DecidableEq, Repr

structure FirmwareFlash where
  remotePath : String
  yes : Bool := false
  skipSnapshot : Bool := false
  json : Bool := false
  port : String := "/dev/ttyACM0"
  dryRun : Bool := false
  deriving DecidableEq, Repr

inductive Request
  | firmwareCheck (request : FirmwareCheck)
  | firmwareUpdate (request : FirmwareUpdate)
  | firmwareFlash (request : FirmwareFlash)
  deriving DecidableEq, Repr

def FirmwareCheck.args (r : FirmwareCheck) : List String :=
  (if r.track ≠ "latest" then ["--track", r.track] else []) ++
  ((if r.offline then ["--offline"] else []) ++
  ((if r.json then ["--json"] else []) ++
  ((if r.port ≠ "/dev/ttyACM0" then ["--port", r.port] else []) ++ [])))

def FirmwareUpdate.args (r : FirmwareUpdate) : List String :=
  (if r.track ≠ "latest" then ["--track", r.track] else []) ++
  ((if r.yes then ["--yes"] else []) ++
  ((if r.force then ["--force"] else []) ++
  ((if r.json then ["--json"] else []) ++
  ((if r.port ≠ "/dev/ttyACM0" then ["--port", r.port] else []) ++
  if r.dryRun then ["--dry-run"] else []))))

/-- What stands behind the path. -/
def FirmwareFlash.options (r : FirmwareFlash) : List String :=
  (if r.yes then ["--yes"] else []) ++
  ((if r.skipSnapshot then ["--skip-snapshot"] else []) ++
  ((if r.json then ["--json"] else []) ++
  ((if r.port ≠ "/dev/ttyACM0" then ["--port", r.port] else []) ++
  if r.dryRun then ["--dry-run"] else [])))

def Request.remoteArgv : Request → List String
  | .firmwareCheck r => ["mower-jetson", "pixhawk", "firmware-check"] ++ r.args
  | .firmwareUpdate r => ["mower-jetson", "pixhawk", "firmware-update"] ++ r.args
  | .firmwareFlash r => ["mower-jetson", "pixhawk", "firmware-flash", r.remotePath] ++ r.options

def endpointOption : OptionDecl where
  key := "endpoint"
  long := ["--port", "--endpoint"]
  takesValue := true

def baudOption : OptionDecl where
  key := "baud"
  long := ["--baud"]
  takesValue := true

def trackOption : OptionDecl where
  key := "track"
  long := ["--track"]
  takesValue := true

def offlineOption : OptionDecl where
  key := "offline"
  long := ["--offline"]

def forceOption : OptionDecl where
  key := "force"
  long := ["--force"]

def skipSnapshotOption : OptionDecl where
  key := "skip_snapshot"
  long := ["--skip-snapshot"]

def yesOption : OptionDecl where
  key := "yes"
  long := ["--yes"]
  short := ['y']

def jsonOption : OptionDecl where
  key := "json_out"
  long := ["--json"]

def dryRunOption : OptionDecl where
  key := "dry_run"
  long := ["--dry-run"]

def verboseOption : OptionDecl where
  key := "verbose"
  long := ["--verbose"]
  short := ['v']

/-- A command of the Jetson with its parameters. -/
inductive PixhawkCommand
  | firmwareCheck (endpoint : String) (baud : ℤ) (track : String) (offline jsonOut : Bool)
  | firmwareUpdate (endpoint : String) (baud : ℤ) (track : String)
      (offline force yes jsonOut : Bool)
  | firmwareFlash (apjFile endpoint : String) (baud : ℤ) (skipSnapshot yes jsonOut : Bool)
  deriving DecidableEq, Repr

structure Invocation where
  dryRun : Bool
  verbose : Bool
  command : PixhawkCommand
  deriving DecidableEq, Repr

def endpointOf (parsed : Parsed) : String := (parsed.value? "endpoint").getD "/dev/pixhawk"

def trackOf (parsed : Parsed) : String := (parsed.value? "track").getD "stable"

def baudOf (parsed : Parsed) : Except UsageError ℤ :=
  match parsed.value? "baud" with
  | none => pure 0
  | some text =>
    match pyInt (.str text) with
    | .ok baud => pure baud
    | .error error => throw (.badParameter error)

def checkOptions : List OptionDecl :=
  [endpointOption, baudOption, trackOption, offlineOption, jsonOption, helpOption]

def pixhawkFirmwareCheck (args : List String) : Except UsageError PixhawkCommand :=
  withOptions checkOptions true args fun parsed => do
    let baud ← baudOf parsed
    if parsed.args ≠ [] then throw (.extraArguments parsed.args)
    pure (.firmwareCheck (endpointOf parsed) baud (trackOf parsed) (parsed.flag "offline")
      (parsed.flag "json_out"))

def updateOptions : List OptionDecl :=
  [endpointOption, baudOption, trackOption, offlineOption, forceOption, yesOption, jsonOption,
   helpOption]

def pixhawkFirmwareUpdate (args : List String) : Except UsageError PixhawkCommand :=
  withOptions updateOptions true args fun parsed => do
    let baud ← baudOf parsed
    if parsed.args ≠ [] then throw (.extraArguments parsed.args)
    pure (.firmwareUpdate (endpointOf parsed) baud (trackOf parsed) (parsed.flag "offline")
      (parsed.flag "force") (parsed.flag "yes") (parsed.flag "json_out"))

def flashOptions : List OptionDecl :=
  [endpointOption, baudOption, skipSnapshotOption, yesOption, jsonOption, helpOption]

def pixhawkFirmwareFlash (args : List String) : Except UsageError PixhawkCommand :=
  withOptions flashOptions true args fun parsed => do
    let baud ← baudOf parsed
    match parsed.args with
    | [] => throw (.missingArgument "APJ_FILE")
    | [apjFile] => pure (.firmwareFlash apjFile (endpointOf parsed) baud
        (parsed.flag "skip_snapshot") (parsed.flag "yes") (parsed.flag "json_out"))
    | _ :: more => throw (.extraArguments more)

def pixhawkApp (args : List String) : Except UsageError PixhawkCommand :=
  withOptions [helpOption] false args fun parsed =>
    match parsed.args with
    | "firmware-check" :: args => pixhawkFirmwareCheck args
    | "firmware-update" :: args => pixhawkFirmwareUpdate args
    | "firmware-flash" :: args => pixhawkFirmwareFlash args
    | name :: _ => throw (.noSuchCommand name)
    | [] => throw .helpShown

/-- The whole command line; the program's own name is not parsed. -/
def jetsonApp (argv : List String) : Except UsageError Invocation :=
  withOptions [dryRunOption, verboseOption, helpOption] false argv.tail fun root =>
    match root.args with
    | "pixhawk" :: args => do
      let command ← pixhawkApp args
      pure ⟨root.flag "dry_run", root.flag "verbose", command⟩
    | name :: _ => throw (.noSuchCommand name)
    | [] => throw .helpShown

theorem jetsonApp_pixhawk (args : List String) :
    jetsonApp ("mower-jetson" :: "pixhawk" :: args) = (⟨false, false, ·⟩) <$> pixhawkApp args := by
  rw [jetsonApp, withOptions, List.tail_cons, parseArgs_first (by decide), ok_bind]
  rfl

theorem pixhawkApp_check (args : List String) :
    pixhawkApp ("firmware-check" :: args) = pixhawkFirmwareCheck args := by
  rw [pixhawkApp, withOptions, parseArgs_first (by decide), ok_bind]
  rfl

theorem parseArgs_check (r : FirmwareCheck) :
    parseArgs checkOptions true r.args = .ok
      { values := (if r.track ≠ "latest" then [("track", some r.track)] else []) ++
          ((if r.offline then [("offline", none)] else []) ++
          ((if r.json then [("json_out", none)] else []) ++
          ((if r.port ≠ "/dev/ttyACM0" then [("endpoint", some r.port)] else []) ++ []))) } := by
  have hoffline : matchOption checkOptions "--offline" = .ok (.complete [("offline", none)]) := rfl
  have hjson : matchOption checkOptions "--json" = .ok (.complete [("json_out", none)]) := rfl
  have htrack : matchOption checkOptions "--track" = .ok (.pending [] "track") := rfl
  have hport : matchOption checkOptions "--port" = .ok (.pending [] "endpoint") := rfl
  rw [FirmwareCheck.args, parseArgs_givenValue (by decide) (by decide) htrack,
    parseArgs_given (by decide) (by decide) hoffline,
    parseArgs_given (by decide) (by decide) hjson,
    parseArgs_givenValue (by decide) (by decide) hport]
  rfl

theorem pixhawkFirmwareCheck_args (r : FirmwareCheck) :
    pixhawkFirmwareCheck r.args = .ok (.firmwareCheck
      (if r.port ≠ "/dev/ttyACM0" then r.port else "/dev/pixhawk") 0
      (if r.track ≠ "latest" then r.track else "stable") r.offline r.json) := by
  rw [pixhawkFirmwareCheck, withOptions, parseArgs_check, ok_bind]
  obtain ⟨track, offline, json, port⟩ := r
  by_cases htrack : track = "latest" <;> by_cases hport : port = "/dev/ttyACM0" <;>
    cases offline <;> cases json <;>
      simp [htrack, hport, Parsed.flag, Parsed.value?, endpointOf, trackOf, baudOf]

theorem pixhawkApp_update (args : List String) :
    pixhawkApp ("firmware-update" :: args) = pixhawkFirmwareUpdate args := by
  rw [pixhawkApp, withOptions, parseArgs_first (by decide), ok_bind]
  rfl

theorem pixhawkApp_flash (args : List String) :
    pixhawkApp ("firmware-flash" :: args) = pixhawkFirmwareFlash args := by
  rw [pixhawkApp, withOptions, parseArgs_first (by decide), ok_bind]
  rfl

theorem parseArgs_update (r : FirmwareUpdate) :
    parseArgs updateOptions true r.args =
      if r.dryRun then .error (.noSuchOption "--dry-run")
      else .ok
        { values := (if r.track ≠ "latest" then [("track", some r.track)] else []) ++
            ((if r.yes then [("yes", none)] else []) ++
            ((if r.force then [("force", none)] else []) ++
            ((if r.json then [("json_out", none)] else []) ++
            ((if r.port ≠ "/dev/ttyACM0" then [("endpoint", some r.port)] else []) ++ [])))) } := by
  have hyes : matchOption updateOptions "--yes" = .ok (.complete [("yes", none)]) := rfl
  have hforce : matchOption updateOptions "--force" = .ok (.complete [("force", none)]) := rfl
  have hjson : matchOption updateOptions "--json" = .ok (.complete [("json_out", none)]) := rfl
  have htrack : matchOption updateOptions "--track" = .ok (.pending [] "track") := rfl
  have hport : matchOption updateOptions "--port" = .ok (.pending [] "endpoint") := rfl
  rw [FirmwareUpdate.args, parseArgs_givenValue (by decide) (by decide) htrack,
    parseArgs_given (by decide) (by decide) hyes, parseArgs_given (by decide) (by decide) hforce,
    parseArgs_given (by decide) (by decide) hjson,
    parseArgs_givenValue (by decide) (by decide) hport]
  cases r.dryRun <;> rfl

theorem pixhawkFirmwareUpdate_args (r : FirmwareUpdate) :
    pixhawkFirmwareUpdate r.args =
      if r.dryRun then .error (.noSuchOption "--dry-run")
      else .ok (.firmwareUpdate (if r.port ≠ "/dev/ttyACM0" then r.port else "/dev/pixhawk") 0
        (if r.track ≠ "latest" then r.track else "stable") false r.force r.yes r.json) := by
  rw [pixhawkFirmwareUpdate, withOptions, parseArgs_update]
  obtain ⟨track, yes, force, json, port, dryRun⟩ := r
  cases dryRun with
  | true => rfl
  | false =>
    by_cases htrack : track = "latest" <;> by_cases hport : port = "/dev/ttyACM0" <;>
      cases yes <;> cases force <;> cases json <;>
        simp [htrack, hport, Parsed.flag, Parsed.value?, endpointOf, trackOf, baudOf]

theorem parseArgs_flash {r : FirmwareFlash} (hdry : r.dryRun = false) :
    parseArgs flashOptions true r.options = .ok
      { values := (if r.yes then [("yes", none)] else []) ++
          ((if r.skipSnapshot then [("skip_snapshot", none)] else []) ++
          ((if r.json then [("json_out", none)] else []) ++
          ((if r.port ≠ "/dev/ttyACM0" then [("endpoint", some r.port)] else []) ++ []))) } := by
  have hyes : matchOption flashOptions "--yes" = .ok (.complete [("yes", none)]) := rfl
  have hskip : matchOption flashOptions "--skip-snapshot" =
    .ok (.complete [("skip_snapshot", none)]) := rfl
  have hjson : matchOption flashOptions "--json" = .ok (.complete [("json_out", none)]) := rfl
  have hport : matchOption flashOptions "--port" = .ok (.pending [] "endpoint") := rfl
  rw [FirmwareFlash.options, hdry, parseArgs_given (by decide) (by decide) hyes,
    parseArgs_given (by decide) (by decide) hskip, parseArgs_given (by decide) (by decide) hjson,
    parseArgs_givenValue (by decide) (by decide) hport]
  rfl

theorem pixhawkFirmwareFlash_path {r : FirmwareFlash} (hdry : r.dryRun = false)
    (hpath : isOption r.remotePath = false) :
    pixhawkFirmwareFlash (r.remotePath :: r.options) = .ok (.firmwareFlash r.remotePath
      (if r.port ≠ "/dev/ttyACM0" then r.port else "/dev/pixhawk") 0 r.skipSnapshot r.yes
        r.json) := by
  rw [pixhawkFirmwareFlash, withOptions, parseArgs_argument hpath, parseArgs_flash hdry]
  obtain ⟨path, yes, skipSnapshot, json, port, dryRun⟩ := r
  by_cases hport : port = "/dev/ttyACM0" <;> cases yes <;> cases skipSnapshot <;> cases json <;>
    simp [hport, Parsed.flag, Parsed.value?, endpointOf, baudOf]

/-- A command that starts the flashing has got one argument. -/
theorem pixhawkFirmwareFlash_ok {args : List String} {apjFile endpoint : String} {baud : ℤ}
    {skipSnapshot yes jsonOut : Bool}
    (h : pixhawkFirmwareFlash args =
      .ok (.firmwareFlash apjFile endpoint baud skipSnapshot yes jsonOut)) :
    ∃ parsed, parseArgs flashOptions true args = .ok parsed ∧ baudOf parsed = .ok baud ∧
      parsed.args = [apjFile] ∧ endpointOf parsed = endpoint ∧
        parsed.flag "skip_snapshot" = skipSnapshot ∧ parsed.flag "yes" = yes ∧
          parsed.flag "json_out" = jsonOut := by
  obtain ⟨parsed, hparsed, h⟩ := bind_eq_ok.mp h
  dsimp only at h
  split_ifs at h with hhelp
  · cases h
  obtain ⟨b, hb, h⟩ := bind_eq_ok.mp h
  split at h
  · cases h
  · rename_i file hargs
    simp only [pure_eq_ok, Except.ok.injEq, PixhawkCommand.firmwareFlash.injEq] at h
    obtain ⟨rfl, rfl, rfl, rfl, rfl, rfl⟩ := h
    exact ⟨parsed, hparsed, hb, hargs, rfl, rfl, rfl, rfl⟩
  · cases h

theorem pending_key {arg key : String} {values : List (String × Option String)}
    (hmatch : matchOption flashOptions arg = .ok (.pending values key)) :
    key = "endpoint" ∨ key = "baud" := by
  obtain ⟨o, ho, hvalue, rfl⟩ := pending_of_matchOption hmatch
  fin_cases ho
  · exact .inl rfl
  · exact .inr rfl
  all_goals cases hvalue

/-- An option that takes `--port` for its value leaves the port as the path, and is then no
port and no number. -/
theorem port_not_consumed {port key apjFile : String} {baud : ℤ} {rest : Parsed}
    {values : List (String × Option String)} (hkey : key = "endpoint" ∨ key = "baud")
    (hrest : parseArgs flashOptions true [port] = .ok rest)
    (hargs : (Parsed.after (values ++ [(key, some "--port")]) rest).args = [apjFile])
    (hbaud : baudOf (Parsed.after (values ++ [(key, some "--port")]) rest) = .ok baud) :
    endpointOf (Parsed.after (values ++ [(key, some "--port")]) rest) ≠ port := by
  intro hendpoint
  cases hportOption : isOption port with
  | true =>
    have hnone : rest.args = [apjFile] := hargs
    rw [args_of_parseArgs_option hportOption hrest] at hnone
    cases hnone
  | false =>
    rw [parseArgs_argument hportOption] at hrest
    obtain rfl := Except.ok.inj hrest
    have hlast : ∀ k, key = k → (Parsed.after (values ++ [(key, some "--port")])
        ⟨[], [port]⟩).value? k = some "--port" := by
      rintro k rfl
      exact value?_concat _ _ _ ⟨values, by simp [Parsed.after]⟩
    cases hkey with
    | inl hk =>
      rw [endpointOf, hlast _ hk] at hendpoint
      obtain rfl : "--port" = port := hendpoint
      cases hportOption
    | inr hk =>
      rw [baudOf, hlast _ hk] at hbaud
      cases hbaud

/-- Whatever follows an option that waits for a value, the path is not passed on as it was. -/
theorem not_pending {r : FirmwareFlash} {apjFile : String} {baud : ℤ} {key : String}
    {values : List (String × Option String)} (hdry : r.dryRun = false)
    (hopt : isOption r.remotePath = true) (hdash : r.remotePath ≠ "--")
    (hmatch : matchOption flashOptions r.remotePath = .ok (.pending values key)) :
    pixhawkFirmwareFlash (r.remotePath :: r.options) ≠
      .ok (.firmwareFlash apjFile r.port baud r.skipSnapshot r.yes r.json) := by
  intro h
  obtain ⟨parsed, hparsed, hbaud, hargs, hendpoint, -⟩ := pixhawkFirmwareFlash_ok h
  have hconsumed : ∀ (option : String) (r' : FirmwareFlash), r'.dryRun = false →
      r.options ≠ option :: r'.options := by
    intro option r' hdry' hoptions
    rw [hoptions, parseArgs_pending hopt hdash hmatch, parseArgs_flash hdry'] at hparsed
    obtain rfl := Except.ok.inj hparsed
    cases hargs
  obtain ⟨path, yes, skipSnapshot, json, port, dryRun⟩ := r
  obtain rfl : dryRun = false := hdry
  cases yes with
  | true => exact hconsumed "--yes" ⟨path, false, skipSnapshot, json, port, false⟩ rfl rfl
  | false =>
    cases skipSnapshot with
    | true => exact hconsumed "--skip-snapshot" ⟨path, false, false, json, port, false⟩ rfl rfl
    | false =>
      cases json with
      | true => exact hconsumed "--json" ⟨path, false, false, false, port, false⟩ rfl rfl
      | false =>
        by_cases hport : port = "/dev/ttyACM0"
        · subst hport
          rw [parseArgs, if_neg hdash, if_pos hopt, hmatch] at hparsed
          cases hparsed
        · have hoptions : (⟨path, false, false, false, port, false⟩ : FirmwareFlash).options =
              ["--port", port] := by simp [FirmwareFlash.options, hport]
          rw [hoptions, parseArgs_pending hopt hdash hmatch] at hparsed
          obtain ⟨rest, hrest, rfl⟩ := map_eq_ok.mp hparsed
          exact port_not_consumed (pending_key hmatch) hrest hargs hbaud hendpoint

/-- A path that looks like an option is not passed on as it was. -/
theorem not_option {r : FirmwareFlash} {apjFile : String} {baud : ℤ} (hdry : r.dryRun = false)
    (hopt : isOption r.remotePath = true) : pixhawkFirmwareFlash (r.remotePath :: r.options) ≠
      .ok (.firmwareFlash apjFile r.port baud r.skipSnapshot r.yes r.json) := by
  intro h
  obtain ⟨parsed, hparsed, -, hargs, hendpoint, hskip, hyes, hjson⟩ := pixhawkFirmwareFlash_ok h
  by_cases hdash : r.remotePath = "--"
  · rw [parseArgs, if_pos hdash] at hparsed
    obtain rfl := Except.ok.inj hparsed
    obtain ⟨path, yes, skipSnapshot, json, port, dryRun⟩ := r
    obtain rfl : "/dev/pixhawk" = port := hendpoint
    obtain rfl : dryRun = false := hdry
    obtain rfl : false = skipSnapshot := hskip
    obtain rfl : false = yes := hyes
    obtain rfl : false = json := hjson
    simp [FirmwareFlash.options] at hargs
  · cases hmatch : matchOption flashOptions r.remotePath with
    | error x =>
      rw [parseArgs, if_neg hdash, if_pos hopt, hmatch] at hparsed
      cases hparsed
    | ok setting =>
      cases setting with
      | complete values =>
        rw [parseArgs_complete hopt hdash hmatch, parseArgs_flash hdry] at hparsed
        obtain rfl := Except.ok.inj hparsed
        cases hargs
      | pending values key => exact not_pending hdry hopt hdash hmatch h

/-- The Jetson's command line is accepted, and its parameters are those of the request. -/
def Forwarded (o : Except UsageError Invocation) : Request → Prop
  | .firmwareCheck r => ∃ i baud, o = .ok i ∧
      i.command = .firmwareCheck r.port baud r.track r.offline r.json
  | .firmwareUpdate r => ∃ i baud offline, o = .ok i ∧ i.dryRun = r.dryRun ∧
      i.command = .firmwareUpdate r.port baud r.track offline r.force r.yes r.json
  | .firmwareFlash r => ∃ i apjFile baud, o = .ok i ∧ i.dryRun = r.dryRun ∧
      i.command = .firmwareFlash apjFile r.port baud r.skipSnapshot r.yes r.json

/-- Nothing is left to a default, no dry run is asked for, and no path looks like an option. -/
def Request.Plain : Request → Prop
  | .firmwareCheck r => r.track ≠ "latest" ∧ r.port ≠ "/dev/ttyACM0"
  | .firmwareUpdate r => r.track ≠ "latest" ∧ r.port ≠ "/dev/ttyACM0" ∧ r.dryRun = false
  | .firmwareFlash r =>
    r.port ≠ "/dev/ttyACM0" ∧ r.dryRun = false ∧ isOption r.remotePath = false

theorem ite_default_iff {value laptop jetson : String} (h : jetson ≠ laptop) :
    (if value ≠ laptop then value else jetson) = value ↔ value ≠ laptop := by
  split_ifs with hv
  · exact iff_of_true rfl hv
  · have hlaptop : value = laptop := not_not.mp hv
    exact iff_of_false (hlaptop ▸ h) hv

theorem track_iff {track : String} :
    (if track ≠ "latest" then track else "stable") = track ↔ track ≠ "latest" :=
  ite_default_iff (by decide)

theorem port_iff {port : String} :
    (if port ≠ "/dev/ttyACM0" then port else "/dev/pixhawk") = port ↔ port ≠ "/dev/ttyACM0" :=
  ite_default_iff (by decide)

theorem forwarded_check_iff (r : FirmwareCheck) :
    Forwarded (jetsonApp (Request.firmwareCheck r).remoteArgv) (.firmwareCheck r) ↔
      (Request.firmwareCheck r).Plain := by
  have happ : jetsonApp (Request.firmwareCheck r).remoteArgv =
      (⟨false, false, ·⟩) <$> pixhawkFirmwareCheck r.args := by
    rw [← pixhawkApp_check, ← jetsonApp_pixhawk]
    rfl
  rw [happ, pixhawkFirmwareCheck_args]
  constructor
  · rintro ⟨i, baud, hi, hcommand⟩
    obtain rfl := Except.ok.inj hi
    obtain ⟨hport, -, htrack, -⟩ := PixhawkCommand.firmwareCheck.inj hcommand
    exact ⟨track_iff.mp htrack, port_iff.mp hport⟩
  · rintro ⟨htrack, hport⟩
    rw [track_iff.mpr htrack, port_iff.mpr hport]
    exact ⟨_, 0, rfl, rfl⟩

theorem forwarded_update_iff (r : FirmwareUpdate) :
    Forwarded (jetsonApp (Request.firmwareUpdate r).remoteArgv) (.firmwareUpdate r) ↔
      (Request.firmwareUpdate r).Plain := by
  have happ : jetsonApp (Request.firmwareUpdate r).remoteArgv =
      (⟨false, false, ·⟩) <$> pixhawkFirmwareUpdate r.args := by
    rw [← pixhawkApp_update, ← jetsonApp_pixhawk]
    rfl
  rw [happ, pixhawkFirmwareUpdate_args]
  constructor
  · rintro ⟨i, baud, offline, hi, hdry, hcommand⟩
    cases hr : r.dryRun with
    | true =>
      rw [hr] at hi
      cases hi
    | false =>
      rw [hr] at hi
      obtain rfl := Except.ok.inj hi
      obtain ⟨hport, -, htrack, -⟩ := PixhawkCommand.firmwareUpdate.inj hcommand
      exact ⟨track_iff.mp htrack, port_iff.mp hport, hr⟩
  · rintro ⟨htrack, hport, hdry⟩
    rw [track_iff.mpr htrack, port_iff.mpr hport, hdry]
    exact ⟨_, 0, false, rfl, hdry.symm, rfl⟩

theorem forwarded_flash_iff (r : FirmwareFlash) :
    Forwarded (jetsonApp (Request.firmwareFlash r).remoteArgv) (.firmwareFlash r) ↔
      (Request.firmwareFlash r).Plain := by
  have happ : jetsonApp (Request.firmwareFlash r).remoteArgv =
      (⟨false, false, ·⟩) <$> pixhawkFirmwareFlash (r.remotePath :: r.options) := by
    rw [← pixhawkApp_flash, ← jetsonApp_pixhawk]
    rfl
  rw [happ]
  constructor
  · rintro ⟨i, apjFile, baud, hi, hdry, hcommand⟩
    obtain ⟨command, hflash, rfl⟩ := map_eq_ok.mp hi
    obtain rfl : command = _ := hcommand
    cases hpath : isOption r.remotePath with
    | true => exact absurd hflash (not_option hdry.symm hpath)
    | false =>
      rw [pixhawkFirmwareFlash_path hdry.symm hpath] at hflash
      obtain ⟨-, hport, -⟩ := PixhawkCommand.firmwareFlash.inj (Except.ok.inj hflash)
      exact ⟨port_iff.mp hport, hdry.symm, hpath⟩
  · rintro ⟨hport, hdry, hpath⟩
    rw [pixhawkFirmwareFlash_path hdry hpath, port_iff.mpr hport]
    exact ⟨_, r.remotePath, 0, rfl, hdry.symm, rfl⟩

/-- A request is forwarded exactly when it is plain. -/
theorem forwarded_iff (request : Request) :
    Forwarded (jetsonApp request.remoteArgv) request ↔ request.Plain := by
  cases request with
  | firmwareCheck r => exact forwarded_check_iff r
  | firmwareUpdate r => exact forwarded_update_iff r
  | firmwareFlash r => exact forwarded_flash_iff r

/-- A check with the laptop's defaults asks the Jetson for another track and port. -/
theorem forwarded_defaults :
    ¬ Forwarded (jetsonApp (Request.firmwareCheck {}).remoteArgv) (.firmwareCheck {}) := by
  rintro ⟨i, baud, hi, hcommand⟩
  have happ : jetsonApp (Request.firmwareCheck {}).remoteArgv =
      .ok ⟨false, false, .firmwareCheck "/dev/pixhawk" 0 "stable" false false⟩ := rfl
  rw [happ] at hi
  obtain rfl := Except.ok.inj hi
  exact absurd (PixhawkCommand.firmwareCheck.inj hcommand).1 (by decide)

end MowerRover.Cli.PixhawkLaptop
