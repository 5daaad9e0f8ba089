import MowerRover.Cli.ArmedGuard
import MowerRover.Effects.Milestones
import MowerRover.PosixPath

/-!
# What comes before the flash

`firmware-flash` takes an image the operator has; `firmware-update` fetches the
latest one. From the armed check on both do the same. Whatever the surroundings
answer, an image is flashed at most once, and not before all the checks have
been passed in their order.
-/

namespace MowerRover.Cli

open Effects Mavlink Pixhawk

structure FlashOptions where
  apjFile : PosixPath
  endpoint : String := "/dev/pixhawk"
  baud : ℕ := 0
  skipSnapshot : Bool := false
  yes : Bool := false
  dryRun : Bool := false

/-- The options of an update that its steps look at. -/
def FlashOptions.link (options : FlashOptions) : UpdateOptions :=
  { endpoint := options.endpoint, baud := options.baud }

def FlashOptions.apjPath (options : FlashOptions) : String := String.ofList options.apjFile.text

/-- `apj_path.name`. -/
def FlashOptions.apjName (options : FlashOptions) : String :=
  String.ofList (options.apjFile.names.getLast?.getD [])

namespace FirmwareFlash

open FirmwareUpdate

/-- Step 3: a version that cannot be read is no more than a warning. -/
def currentVersion (options : FlashOptions) : ToolM (Option FirmwareInfo) :=
  tryCatch (openLink (config options.link) fun conn => liftLink (readRunningVersion conn))
    fun _ => pure none

/-- Step 4. -/
def snapshot (options : FlashOptions) : ToolM Unit :=
  if options.skipSnapshot then pure () else snapshotParams options.link

def message (options : FlashOptions) (running : Option FirmwareInfo) : String :=
  let currentVer := (running.map (·.versionString)).getD "unknown"
  s!"Flash firmware from {options.apjName} to Pixhawk (current: {currentVer})?"

/-- Step 5. -/
def confirmed (options : FlashOptions) (running : Option FirmwareInfo) : ToolM Bool :=
  if options.dryRun then pure false
  else if options.yes then pure true
  else ask (.prompt (message options running))

end FirmwareFlash

open FirmwareFlash FirmwareUpdate in
/-- `mower-jetson pixhawk firmware-flash`, for a file that is there or not. -/
def firmwareFlash (fileExists : Bool) (options : FlashOptions) : ToolM Unit := do
  if !fileExists then throw (.exit 1 "")
  else
    orExit "" (do raised (← ask (.validateApj options.apjPath)))
    let running ← currentVersion options
    snapshot options
    if ← FirmwareFlash.confirmed options running then
      enterBootloader options.link
      flashAndVerify options.link options.apjPath
    else pure ()

/-- The call that matters. -/
def Flashes : ToolOp → Prop
  | .flashFirmware .. => True
  | _ => False

namespace Milestone

def versionRead (v : ℕ) (c : Call toolSignature) : Prop :=
  c = ⟨.link (.recvMatch [.autopilotVersion]), some (.autopilotVersion v)⟩

def remoteRead (track : String) (latest : ℤ × ℤ × ℤ) (c : Call toolSignature) : Prop :=
  c = ⟨.checkRemoteVersion track, some latest⟩

def downloaded (track : String) (latest : ℤ × ℤ × ℤ) (path : String) (c : Call toolSignature) :
    Prop := c = ⟨.downloadFirmware track latest "/var/cache/mower/firmware", some path⟩

def validated (path : String) (c : Call toolSignature) : Prop := c = ⟨.validateApj path, .ok ()⟩

def approved (message : String) (c : Call toolSignature) : Prop := c = ⟨.prompt message, true⟩

/-- A heartbeat that is not armed, or none. -/
def notSeenArmed (c : Call toolSignature) : Prop :=
  ∃ answer : Option Msg, c = ⟨heartbeatPoll, answer⟩ ∧
    ∀ system component baseMode, answer = some (.heartbeat system component baseMode) →
      safetyArmed baseMode = false

def rebooted (c : Call toolSignature) : Prop :=
  ∃ conn, c = ⟨.link (.send conn rebootCommand), ()⟩

def bootloaderFound (endpoint port : String) (c : Call toolSignature) : Prop :=
  c = ⟨.waitForBootloader endpoint, .ok port⟩

/-- The operator is asked unless told otherwise. -/
def approval (yes : Bool) (message : String) : List (Call toolSignature → Prop) :=
  if yes then [] else [approved message]

/-- What the last steps of both commands come past. -/
def entered (endpoint port : String) : List (Call toolSignature → Prop) :=
  [bootloaderFound endpoint port, rebooted, notSeenArmed]

end Milestone

open Milestone

/-- No image is flashed, or one is, past milestones as they must be; the command fails if that
does. -/
def FlashedPast (cleared : String → String → List (Call toolSignature → Prop) → Prop)
    (o : Oracle toolSignature) (p : ToolM Unit) : Prop :=
  (∀ d ∈ p.trace o, ¬ Flashes d.1) ∨
    ∃ port path kinds r, cleared port path kinds ∧
      Once Flashes kinds ⟨.flashFirmware port path, r⟩ (p.trace o) ∧
      ((p.run o.handler []).result = .ok () ↔ r.success = true)

/-- What an update comes past: versions that call for it, an image of the latest one that is
valid, the operator's consent, and the last steps. -/
def FirmwareUpdate.Cleared (options : UpdateOptions) (port path : String)
    (kinds : List (Call toolSignature → Prop)) : Prop :=
  options.dryRun = false ∧ ∃ (v : ℕ) (latest : ℤ × ℤ × ℤ),
    (options.force = true ∨ versionLe latest
      ((firmwareInfo v).major, (firmwareInfo v).minor, (firmwareInfo v).patch) = false) ∧
    kinds = entered options.endpoint port ++
      (approval options.yes (s!"Flash firmware {latest.1}.{latest.2.1}.{latest.2.2} to Pixhawk" ++
        s!" (replacing {(firmwareInfo v).versionString})?") ++
      [validated path, downloaded options.track latest path, remoteRead options.track latest,
        versionRead v])

/-- What a flash comes past: the operator's image, which is valid, the consent to flash it, and
the last steps. -/
def FirmwareFlash.Cleared (options : FlashOptions) (port path : String)
    (kinds : List (Call toolSignature → Prop)) : Prop :=
  options.dryRun = false ∧ path = options.apjPath ∧ ∃ running,
    kinds = entered options.endpoint port ++
      (approval options.yes (FirmwareFlash.message options running) ++ [validated path])

section Steps

variable {o : Oracle toolSignature} {kinds : List (Call toolSignature → Prop)}

theorem IsConnecting.not_flashes {op : ToolOp} (hop : IsConnecting op) : ¬ Flashes op := by
  cases op <;> first | exact hop.elim | exact fun h => h

theorem ask_stage (op : ToolOp) (hop : ¬ Flashes op)
    {E : PyError → List (Call toolSignature) → Prop} :
    Triple o.handler (Stage Flashes kinds) (ask op)
      (fun r past => ∀ kind : Call toolSignature → Prop, kind ⟨op, r⟩ →
        Stage Flashes (kind :: kinds) past) E := perform_stage hop

theorem ask_quiet (op : ToolOp) (hop : ¬ Flashes op) :
    Preserves o.handler (Stage Flashes kinds) (ask op) := ask_preserves (keeps_stage hop)

theorem openLink_stage {α : Type} {body : Conn → ToolM α} (options : UpdateOptions)
    {Q : α → List (Call toolSignature) → Prop} (hQ : ∀ a, Keeps o.handler (Q a) .close)
    (hbody : ∀ conn, Triple o.handler (Stage Flashes kinds) (body conn) Q
      fun _ => Stage Flashes kinds) :
    Triple o.handler (Stage Flashes kinds) (openLink (FirmwareUpdate.config options) body) Q
      fun _ => Stage Flashes kinds := by
  have hkeep : ∀ op, IsConnecting op → Keeps o.handler (Stage Flashes kinds) op :=
    fun op hop => keeps_stage hop.not_flashes
  exact openLink_triple (FirmwareUpdate.config options) (by simp [FirmwareUpdate.config])
    (connectOnce_triple _ hkeep fun t past _ hs _ => hkeep (.waitHeartbeat t) trivial past hs)
    hkeep (fun _ hs => hs) (fun _ hs => hs) hkeep hQ hbody

theorem readRunningVersion_stage (conn : Conn) :
    Triple o.handler (Stage Flashes kinds) (liftLink (readRunningVersion conn))
      (fun r past => Stage Flashes kinds past ∧ ∀ info, r = some info → ∃ v,
        info = firmwareInfo v ∧ Stage Flashes (versionRead v :: kinds) past)
      fun _ => Stage Flashes kinds := by
  refine Triple.mapOps ?_
  refine Triple.bind (Q := fun _ => Stage Flashes kinds)
    (Triple.perform fun _ hs => hs.cons (c := ⟨.link (.send _ _), ()⟩) fun h => h) fun _ => ?_
  refine Triple.bind (Q := fun answer past => Stage Flashes kinds past ∧ ∀ v,
    answer = some (.autopilotVersion v) → Stage Flashes (versionRead v :: kinds) past)
    (Triple.perform fun past hs => ?_) fun answer => ?_
  · have hquiet : ¬ Flashes (.link (.recvMatch [.autopilotVersion])) := fun h => h
    refine ⟨hs.cons hquiet, fun v hv => ⟨(hs.cons hquiet).none, hs.passed.here ?_⟩⟩
    rw [versionRead, ← hv]
    rfl
  · split
    · rename_i v
      refine Triple.pure fun _ hs => ⟨hs.1, fun info hinfo => ⟨v, ?_, hs.2 v rfl⟩⟩
      exact (Option.some.inj hinfo).symm
    · exact Triple.pure fun _ hs => ⟨hs.1, by simp⟩

theorem checkNotArmed_stage :
    Triple o.handler (Stage Flashes kinds) (liftLink FirmwareUpdate.checkNotArmed)
      (fun _ => Stage Flashes (notSeenArmed :: kinds)) fun _ => Stage Flashes kinds := by
  have hquiet : ¬ Flashes heartbeatPoll := fun h => h
  refine Triple.mapOps ?_
  refine Triple.bind (Q := fun (answer : Option Msg) past => ∃ earlier,
    past = ⟨heartbeatPoll, answer⟩ :: earlier ∧ Stage Flashes kinds earlier)
    (Triple.perform fun past hs => ⟨past, rfl, hs⟩) fun answer => ?_
  have hpass : ∀ past, (∃ earlier, past = ⟨heartbeatPoll, answer⟩ :: earlier ∧
      Stage Flashes kinds earlier) → (∀ system component baseMode,
        answer = some (.heartbeat system component baseMode) → safetyArmed baseMode = false) →
      Stage Flashes (notSeenArmed :: kinds) past := by
    rintro _ ⟨earlier, rfl, hs⟩ hanswer
    exact ⟨(hs.cons hquiet).none, hs.passed.here ⟨answer, rfl, hanswer⟩⟩
  split
  · rename_i system component baseMode
    split_ifs with harmed
    · refine Triple.throw ?_
      rintro _ ⟨earlier, rfl, hs⟩
      exact hs.cons hquiet
    · refine Triple.pure fun past hs => hpass past hs fun _ _ mode hmode => ?_
      simp only [Option.some.injEq, Msg.heartbeat.injEq] at hmode
      simpa [← hmode.2.2] using harmed
  · rename_i hother
    exact Triple.pure fun past hs => hpass past hs fun system component baseMode hmode =>
      absurd hmode (hother system component baseMode)

theorem rebootToBootloader_stage (conn : Conn) :
    Triple o.handler (Stage Flashes kinds) (rebootToBootloader conn)
      (fun _ => Stage Flashes (rebooted :: kinds)) fun _ => Stage Flashes kinds := by
  refine Triple.bind (Q := fun _ => Stage Flashes (rebooted :: kinds)) (Triple.mapOps ?_)
    fun _ => ?_
  · have hquiet : ¬ Flashes (.link (.send conn rebootCommand)) := fun h => h
    exact Triple.perform fun past hs => ⟨(hs.cons hquiet).none, hs.passed.here ⟨conn, rfl⟩⟩
  · exact (ask_quiet .close fun h => h).onError fun _ _ hs => hs.tail

theorem readVersions_stage (options : UpdateOptions) :
    Triple o.handler (Stage Flashes kinds) (FirmwareUpdate.readVersions options)
      (fun r past => ∃ v, r.1 = firmwareInfo v ∧
        Stage Flashes (remoteRead options.track r.2 :: versionRead v :: kinds) past)
      fun _ => Stage Flashes kinds := by
  refine Triple.bind (Triple.tryCatch (openLink_stage options (fun r => ?_)
    readRunningVersion_stage) fun _ => Triple.throw fun _ hs => hs) fun running => ?_
  · have hclose : ¬ Flashes .close := fun h => h
    rintro past ⟨hs, hread⟩
    refine ⟨hs.cons hclose, fun info hinfo => ?_⟩
    obtain ⟨v, hv, hstage⟩ := hread info hinfo
    exact ⟨v, hv, hstage.cons hclose⟩
  cases running with
  | none => exact Triple.throw fun _ hs => hs.1
  | some running =>
    cases options.offline with
    | true => exact Triple.throw fun _ hs => hs.1
    | false =>
      refine Triple.bind (Q := fun latest past => Stage Flashes kinds past ∧ ∀ l, latest = some l →
        ∃ v, running = firmwareInfo v ∧
          Stage Flashes (remoteRead options.track l :: versionRead v :: kinds) past)
        (Triple.perform fun past hs => ?_) fun latest => ?_
      · have hquiet : ¬ Flashes (.checkRemoteVersion options.track) := fun h => h
        refine ⟨hs.1.cons hquiet, fun l hl => ?_⟩
        obtain ⟨v, hv, hstage⟩ := hs.2 running rfl
        refine ⟨v, hv, (hstage.cons hquiet).none, hstage.passed.here ?_⟩
        rw [remoteRead, ← hl]
        rfl
      · cases latest with
        | none => exact Triple.throw fun _ hs => hs.1
        | some latest => exact Triple.pure fun _ hs => hs.2 latest rfl

theorem validateApj_stage (path message : String) :
    Triple o.handler (Stage Flashes kinds)
      (orExit message (do raised (← ask (.validateApj path))))
      (fun _ => Stage Flashes (validated path :: kinds)) fun _ => Stage Flashes kinds := by
  refine Triple.tryCatch (E := fun _ => Stage Flashes kinds) ?_ fun _ => Triple.throw fun _ hs => hs
  refine (ask_stage (.validateApj path) fun h => h).bind fun answer => ?_
  cases answer with
  | ok u => exact Triple.pure fun _ hs => hs _ rfl
  | error exc => exact Triple.throw fun _ hs => (hs (fun _ => True) trivial).tail

theorem fetchImage_stage (options : UpdateOptions) (latest : ℤ × ℤ × ℤ) :
    Triple o.handler (Stage Flashes kinds) (FirmwareUpdate.fetchImage options latest)
      (fun path => Stage Flashes
        (validated path :: downloaded options.track latest path :: kinds))
      fun _ => Stage Flashes kinds := by
  refine (ask_stage (.downloadFirmware ..) fun h => h).bind fun answer => ?_
  cases answer with
  | none => exact Triple.throw fun _ hs => (hs (fun _ => True) trivial).tail
  | some path =>
    refine Triple.bind (Q := fun _ => Stage Flashes
      (validated path :: downloaded options.track latest path :: kinds)) ?_ fun _ =>
      Triple.pure fun _ hs => hs
    exact (validateApj_stage path "").conseq
      (fun _ hs => hs (downloaded options.track latest path) rfl) (fun _ _ hs => hs)
      fun _ _ hs => hs.tail

theorem snapshotParams_stage (options : UpdateOptions) :
    Triple o.handler (Stage Flashes kinds) (FirmwareUpdate.snapshotParams options)
      (fun _ => Stage Flashes kinds) fun _ _ => False := by
  have hclose : ∀ _ : Unit, Keeps o.handler (Stage Flashes kinds) .close :=
    fun _ => keeps_stage fun h => h
  refine Triple.tryCatch (E := fun _ => Stage Flashes kinds) ?_ fun _ => Triple.pure fun _ hs => hs
  refine Preserves.bind (openLink_stage options hclose fun conn => ?_)
    fun _ => ?_
  · exact (ask_quiet .fetchParams fun h => h).bind fun _ => raised_preserves _
  · exact (ask_quiet .writeJsonSnapshot fun h => h).bind fun _ => raised_preserves _

theorem enterBootloader_stage (options : UpdateOptions) :
    Triple o.handler (Stage Flashes kinds) (FirmwareUpdate.enterBootloader options)
      (fun _ => Stage Flashes (rebooted :: notSeenArmed :: kinds))
      fun _ => Stage Flashes kinds := by
  have hclose : ∀ kinds, ∀ _ : Unit, Keeps o.handler (Stage Flashes kinds) .close :=
    fun _ _ => keeps_stage fun h => h
  refine Triple.bind (Q := fun _ => Stage Flashes (notSeenArmed :: kinds)) ?_ fun _ => ?_
  · exact Triple.tryCatch (openLink_stage options (hclose _) fun _ =>
      checkNotArmed_stage) fun _ => Triple.throw fun _ hs => hs
  · refine Triple.onError (E := fun _ => Stage Flashes (notSeenArmed :: kinds)) ?_
      fun _ _ hs => hs.tail
    exact Triple.tryCatch (openLink_stage options (hclose _)
      rebootToBootloader_stage) fun _ => Triple.throw fun _ hs => hs

/-- A version that cannot be read back changes nothing any more. -/
theorem readBack_once (options : UpdateOptions) (c : Call toolSignature) :
    Triple o.handler (Once Flashes kinds c)
      (tryCatch (do
        let _ ← openLink (FirmwareUpdate.config options) fun conn =>
          liftLink (readRunningVersion conn)
        pure ()) fun _ => pure () : ToolM Unit)
      (fun _ => Once Flashes kinds c) fun _ _ => False := by
  have hkeep : ∀ op, IsConnecting op → Keeps o.handler (Once Flashes kinds c) op :=
    fun op hop => keeps_once hop.not_flashes c
  refine Triple.tryCatch (E := fun _ => Once Flashes kinds c) ?_ fun _ =>
    Triple.pure fun _ hs => hs
  refine Preserves.bind (openLink_preserves (FirmwareUpdate.config options)
    (by simp [FirmwareUpdate.config]) hkeep fun conn => ?_) fun _ => Preserves.pure _
  refine Preserves.of_calls (A := fun op => ¬ Flashes op) (fun op hop => keeps_once hop c)
    (Program.Calls.mapOps ?_)
  refine Program.Calls.bind (Program.calls_perform (S := linkSignature) fun h => h) fun _ =>
    Program.Calls.bind (Program.calls_perform (S := linkSignature) fun h => h) fun answer => ?_
  split <;> simp

/-- The image is flashed, or the command fails before. -/
theorem flashAndVerify_once (options : UpdateOptions) (path : String) :
    Triple o.handler (Stage Flashes kinds) (FirmwareUpdate.flashAndVerify options path)
      (fun _ past => ∃ port r, r.success = true ∧ Once Flashes
        (bootloaderFound options.endpoint port :: kinds) ⟨.flashFirmware port path, r⟩ past)
      fun _ past => Stage Flashes kinds past ∨ ∃ port r, r.success = false ∧ Once Flashes
        (bootloaderFound options.endpoint port :: kinds) ⟨.flashFirmware port path, r⟩ past := by
  refine Triple.bind (Q := fun port => Stage Flashes
    (bootloaderFound options.endpoint port :: kinds)) ?_ fun port => ?_
  · refine Triple.tryCatch (E := fun _ => Stage Flashes kinds) ?_ fun _ =>
      Triple.throw fun _ hs => .inl hs
    refine (ask_stage (.waitForBootloader options.endpoint) fun h => h).bind fun answer => ?_
    cases answer with
    | ok port => exact Triple.pure fun _ hs => hs (bootloaderFound options.endpoint port) rfl
    | error exc => exact Triple.throw fun _ hs => (hs (fun _ => True) trivial).tail
  · refine Triple.bind perform_once fun r => ?_
    cases hr : r.success with
    | true =>
      simp only [if_true]
      refine Triple.bind (ask_triple (keeps_once (fun h => h) _)) fun _ => ?_
      exact (readBack_once options _).neverFails.post fun _ _ hs => ⟨port, r, hr, hs⟩
    | false => exact Triple.throw fun _ hs => .inr ⟨port, r, hr, hs⟩

theorem flash_tail (options : UpdateOptions) (path : String) :
    Triple o.handler (Stage Flashes kinds)
      (do
        FirmwareUpdate.enterBootloader options
        FirmwareUpdate.flashAndVerify options path)
      (fun _ past => ∃ port r, r.success = true ∧ Once Flashes
        (entered options.endpoint port ++ kinds) ⟨.flashFirmware port path, r⟩ past)
      fun _ past => (∀ d ∈ past, ¬ Flashes d.1) ∨ ∃ port r, r.success = false ∧ Once Flashes
        (entered options.endpoint port ++ kinds) ⟨.flashFirmware port path, r⟩ past := by
  refine Triple.bind ((enterBootloader_stage options).onError fun _ _ hs => .inl hs.none)
    fun _ => ?_
  exact (flashAndVerify_once options path).onError fun _ _ hs => hs.imp_left Stage.none

theorem confirmation_stage (dryRun yes : Bool) (message : String) :
    Triple o.handler (Stage Flashes kinds)
      (if dryRun then pure false else if yes then pure true else ask (.prompt message) : ToolM Bool)
      (fun go past => (∀ d ∈ past, ¬ Flashes d.1) ∧ (go = true → dryRun = false ∧
        Stage Flashes (approval yes message ++ kinds) past)) fun _ => Stage Flashes kinds := by
  cases dryRun with
  | true => exact Triple.pure fun _ hs => ⟨hs.none, by simp⟩
  | false =>
    cases yes with
    | true => exact Triple.pure fun _ hs => ⟨hs.none, fun _ => ⟨rfl, hs⟩⟩
    | false =>
      refine (ask_stage (.prompt message) fun h => h).post fun go _ hs => ?_
      refine ⟨(hs (fun _ => True) trivial).none, ?_⟩
      rintro rfl
      exact ⟨rfl, hs (approved message) rfl⟩

end Steps

/-- The ways a command may end. -/
def Ended (cleared : String → String → List (Call toolSignature → Prop) → Prop) (success : Bool)
    (past : List (Call toolSignature)) : Prop :=
  (∀ d ∈ past, ¬ Flashes d.1) ∨ ∃ port path kinds r, cleared port path kinds ∧
    r.success = success ∧ Once Flashes kinds ⟨.flashFirmware port path, r⟩ past

theorem flashedPast_of_triple {o : Oracle toolSignature} {p : ToolM Unit}
    {cleared : String → String → List (Call toolSignature → Prop) → Prop}
    (h : Triple o.handler (Stage Flashes []) p (fun _ => Ended cleared true)
      fun _ => Ended cleared false) : FlashedPast cleared o p := by
  obtain ⟨hok, herr⟩ := h [] Stage.start
  unfold FlashedPast Program.trace
  cases hr : (p.run o.handler []).result with
  | ok u =>
    obtain hnone | ⟨port, path, kinds, r, hcleared, hsuccess, honce⟩ := hok u hr
    · exact .inl hnone
    · exact .inr ⟨port, path, kinds, r, hcleared, honce, by simp [hsuccess]⟩
  | error exc =>
    obtain hnone | ⟨port, path, kinds, r, hcleared, hfail, honce⟩ := herr exc hr
    · exact .inl hnone
    · exact .inr ⟨port, path, kinds, r, hcleared, honce, by simp [hfail]⟩

theorem flash_tail_ended {o : Oracle toolSignature} {kinds : List (Call toolSignature → Prop)}
    {cleared : String → String → List (Call toolSignature → Prop) → Prop}
    (options : UpdateOptions) (path : String)
    (hcleared : ∀ port, cleared port path (entered options.endpoint port ++ kinds)) :
    Triple o.handler (Stage Flashes kinds)
      (do
        FirmwareUpdate.enterBootloader options
        FirmwareUpdate.flashAndVerify options path)
      (fun _ => Ended cleared true) fun _ => Ended cleared false := by
  refine (flash_tail options path).conseq (fun _ hs => hs) ?_ ?_
  · rintro _ _ ⟨port, r, hr, honce⟩
    exact .inr ⟨port, path, _, r, hcleared port, hr, honce⟩
  · rintro _ _ (hnone | ⟨port, r, hr, honce⟩)
    · exact .inl hnone
    · exact .inr ⟨port, path, _, r, hcleared port, hr, honce⟩

/-- Whatever the surroundings answer, an update flashes at most one image, and only when all
checks have been passed in their order: the running version and the latest one call for it, the
image of the latest one was downloaded and is valid, the operator agreed to these two versions,
nobody was seen armed, the command to reboot was sent and the bootloader answered. -/
theorem firmwareUpdate_flashes (options : UpdateOptions) (o : Oracle toolSignature) :
    FlashedPast (FirmwareUpdate.Cleared options) o (firmwareUpdate options) := by
  refine flashedPast_of_triple ?_
  refine Triple.bind ((readVersions_stage options).onError fun _ _ hs => .inl hs.none) ?_
  rintro ⟨running, latest⟩
  refine Triple.ofExists fun v => Triple.assuming fun hv => ?_
  obtain rfl : running = firmwareInfo v := hv
  dsimp only
  split_ifs with hskip
  · exact Triple.pure fun _ hs => .inl hs.none
  refine Triple.bind ((fetchImage_stage options latest).onError fun _ _ hs => .inl hs.none)
    fun path => ?_
  refine Triple.bind (snapshotParams_stage options).neverFails fun _ => ?_
  refine Triple.bind ((confirmation_stage options.dryRun options.yes _).onError
    fun _ _ hs => .inl hs.none) fun go => ?_
  cases go with
  | false => exact Triple.pure fun _ hs => .inl hs.1
  | true =>
    intro past hs
    obtain ⟨hdry, hstage⟩ := hs.2 rfl
    refine flash_tail_ended options path (fun port => ⟨hdry, v, latest, ?_, rfl⟩) past hstage
    cases hforce : options.force with
    | true => exact .inl rfl
    | false => exact .inr (by simpa [hforce] using hskip)

/-- Likewise for an image the operator has: it is there and valid, and no other is flashed. -/
theorem firmwareFlash_flashes (fileExists : Bool) (options : FlashOptions)
    (o : Oracle toolSignature) :
    FlashedPast (FirmwareFlash.Cleared options) o (firmwareFlash fileExists options) := by
  refine flashedPast_of_triple ?_
  cases fileExists with
  | false => exact Triple.throw fun _ hs => .inl hs.none
  | true =>
    refine Triple.bind ((validateApj_stage options.apjPath "").onError fun _ _ hs => .inl hs.none)
      fun _ => ?_
    refine Triple.bind (Q := fun _ => Stage Flashes [validated options.apjPath]) ?_
      fun running => ?_
    · refine Triple.tryCatch (openLink_stage options.link (fun _ => keeps_stage fun h => h)
        fun conn => (readRunningVersion_stage conn).post fun _ _ hs => hs.1) fun _ =>
        Triple.pure fun _ hs => hs
    refine Triple.bind (Q := fun _ => Stage Flashes [validated options.apjPath]) ?_ fun _ => ?_
    · unfold FirmwareFlash.snapshot
      split_ifs
      · exact Triple.pure fun _ hs => hs
      · exact (snapshotParams_stage options.link).neverFails
    refine Triple.bind ((confirmation_stage options.dryRun options.yes _).onError
      fun _ _ hs => .inl hs.none) fun go => ?_
    cases go with
    | false => exact Triple.pure fun _ hs => .inl hs.1
    | true =>
      intro past hs
      obtain ⟨hdry, hstage⟩ := hs.2 rfl
      exact flash_tail_ended options.link options.apjPath (fun port => ⟨hdry, rfl, running, rfl⟩)
        past hstage

end MowerRover.Cli
