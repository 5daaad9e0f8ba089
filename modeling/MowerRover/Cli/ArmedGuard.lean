import MowerRover.Cli.ZoneSelect
import MowerRover.Cli.FirmwareUpdate
import MowerRover.Zone.WireFormat

/-!
# The armed check of the two commands

Both commands look at one heartbeat before they act. The check refuses an armed
sender and lets everything else pass: a disarmed heartbeat of another system or
component on the link, and silence. So a command acts only after a disarmed
heartbeat of its own target exactly when the first heartbeat that it is going
to see comes from there, or is armed.

The surroundings are arbitrary but for what arrives as heartbeats and for the
target of the connection.
-/

namespace MowerRover.Cli

open Effects Mavlink Zone Pixhawk

structure Heartbeat where
  srcSystem : ℕ
  srcComponent : ℕ
  baseMode : ℕ
  deriving DecidableEq, Repr

def Heartbeat.msg (hb : Heartbeat) : Msg := .heartbeat hb.srcSystem hb.srcComponent hb.baseMode

abbrev heartbeatPoll : ToolOp := .link (.recvMatch [.heartbeat])

def isHeartbeatPoll (c : Call toolSignature) : Bool :=
  match c.1 with
  | .link (.recvMatch types) => types = [.heartbeat]
  | _ => false

def opensLink (c : Call toolSignature) : Bool :=
  match c.1 with
  | .waitHeartbeat _ => true
  | _ => false

/-- How often the link that is open now has been asked for a heartbeat. -/
def polled (past : List (Call toolSignature)) : ℕ :=
  (past.takeWhile fun c => !opensLink c).countP isHeartbeatPoll

/-- Links lead to `conn`, and on each the polls for a heartbeat are answered in
turn; a poll without an entry times out. -/
structure Hears (conn : Conn) (heartbeats : List (Option Heartbeat)) (o : Oracle toolSignature) :
    Prop where
  target : ∀ past timeout c, o past (.waitHeartbeat timeout) = some c → c = conn
  heartbeat : ∀ past, o past heartbeatPoll = heartbeats[polled past]?.join.map Heartbeat.msg

/-- A disarmed heartbeat of the target was seen. -/
def Observed (conn : Conn) (c : Call toolSignature) : Prop :=
  ∃ baseMode, c = ⟨heartbeatPoll,
    some (.heartbeat conn.targetSystem conn.targetComponent baseMode)⟩ ∧
    safetyArmed baseMode = false

/-- The remote activation of a zone, or a message of its upload. -/
def Activates (c : Call toolSignature) : Prop :=
  match c.1 with
  | .ssh _ _ | .link (.send _ _) => True
  | _ => False

/-- The command that ends in the bootloader. -/
def Reboots (c : Call toolSignature) : Prop :=
  match c.1 with
  | .link (.send _ msg) => msg = rebootCommand
  | _ => False

/-- The first heartbeat comes from the target, or stops the command anyway. -/
def Trusted (conn : Conn) (heartbeats : List (Option Heartbeat)) : Prop :=
  ∃ hb, heartbeats.head? = some (some hb) ∧ (safetyArmed hb.baseMode = true ∨
    (hb.srcSystem = conn.targetSystem ∧ hb.srcComponent = conn.targetComponent))

section Check

variable {conn : Conn} {heartbeats : List (Option Heartbeat)} {o : Oracle toolSignature}

theorem refuseArmed_run (message : String) (past : List (Call toolSignature))
    {answer : Option Heartbeat} (ho : o past heartbeatPoll = answer.map Heartbeat.msg) :
    (liftLink (refuseArmed message)).run o.handler past =
      ⟨if answer.any (fun hb => safetyArmed hb.baseMode) then .error (.badParameter message)
        else .ok (), ⟨heartbeatPoll, answer.map Heartbeat.msg⟩ :: past, []⟩ := by
  rw [liftLink, Program.run_mapOps, refuseArmed, Program.run_bind, recvMatch, Program.run_perform]
  simp only [Oracle.handler, ho, Outcome.andThen_mk_ok, Outcome.after_nil]
  cases answer with
  | none => rfl
  | some hb =>
    cases harmed : safetyArmed hb.baseMode <;> simp [Heartbeat.msg, harmed]

/-- The link that is open has not been asked for a heartbeat. -/
def Fresh (P : List (Call toolSignature) → Prop) (past : List (Call toolSignature)) : Prop :=
  P past ∧ polled past = 0

theorem Hears.connect (hears : Hears conn heartbeats o) {P : List (Call toolSignature) → Prop}
    (hP : ∀ op, IsConnecting op → Keeps o.handler P op) (config : ConnectionConfig) :
    Triple o.handler P (connectOnce config) (fun c s => c = conn ∧ Fresh P s) fun _ => P := by
  refine connectOnce_triple config hP fun t past c hs hc => ?_
  exact ⟨hears.target past t c hc, hP (.waitHeartbeat t) trivial past hs, rfl⟩

/-- What the check does to the trace, and when it lets the command pass. -/
theorem Hears.check (hears : Hears conn heartbeats o) (message : String)
    (P : List (Call toolSignature) → Prop) :
    Triple o.handler (Fresh P) (liftLink (refuseArmed message))
      (fun _ s => ∃ past, P past ∧
        s = ⟨heartbeatPoll, heartbeats.head?.join.map Heartbeat.msg⟩ :: past ∧
        heartbeats.head?.join.any (fun hb => safetyArmed hb.baseMode) = false)
      (fun _ s => ∃ past, P past ∧
        s = ⟨heartbeatPoll, heartbeats.head?.join.map Heartbeat.msg⟩ :: past ∧
        heartbeats.head?.join.any (fun hb => safetyArmed hb.baseMode) = true) := by
  rintro past ⟨hP, hpolled⟩
  have ho := hears.heartbeat past
  rw [hpolled, ← List.head?_eq_getElem?] at ho
  rw [refuseArmed_run message past ho]
  cases hb : heartbeats.head?.join.any fun hb => safetyArmed hb.baseMode with
  | false => exact ⟨fun _ _ => ⟨past, hP, rfl, rfl⟩, fun _ h => by simp at h⟩
  | true => exact ⟨fun _ h => by simp at h, fun _ _ => ⟨past, hP, rfl, rfl⟩⟩

theorem Hears.guard (hears : Hears conn heartbeats o) (htrust : Trusted conn heartbeats)
    (message : String) {A : Call toolSignature → Prop} (hA : Never A heartbeatPoll) :
    Triple o.handler (Fresh (Preceded A (Observed conn))) (liftLink (refuseArmed message))
      (fun _ past => Preceded A (Observed conn) past ∧ ∃ d ∈ past, Observed conn d)
      fun _ => Preceded A (Observed conn) := by
  obtain ⟨hb, hhead, hcase⟩ := htrust
  refine (hears.check message (Preceded A (Observed conn))).conseq (fun _ hs => hs) ?_ ?_
  · rintro _ _ ⟨past, hpast, rfl, hdisarmed⟩
    simp only [hhead, Option.join_some, Option.any_some] at hdisarmed
    obtain ⟨hsys, hcomp⟩ := hcase.resolve_left (by simp [hdisarmed])
    refine ⟨⟨fun h => absurd h (hA _), hpast⟩, _, List.mem_cons_self, hb.baseMode, ?_, hdisarmed⟩
    simp [hhead, Heartbeat.msg, hsys, hcomp]
  · rintro _ _ ⟨past, hpast, rfl, -⟩
    exact ⟨fun h => absurd h (hA _), hpast⟩

/-- From an untrusted one it observes nothing, unless it refuses. -/
theorem Hears.blind (hears : Hears conn heartbeats o) (htrust : ¬ Trusted conn heartbeats)
    (message : String) :
    Triple o.handler (Fresh fun past => ∀ d ∈ past, ¬ Observed conn d)
      (liftLink (refuseArmed message)) (fun _ past => ∀ d ∈ past, ¬ Observed conn d)
      fun _ _ => False := by
  have hforeign : ∀ hb, heartbeats.head?.join = some hb → safetyArmed hb.baseMode = false ∧
      ¬ (hb.srcSystem = conn.targetSystem ∧ hb.srcComponent = conn.targetComponent) := by
    intro hb hhead
    have : ¬ (safetyArmed hb.baseMode = true ∨ _) := fun h =>
      htrust ⟨hb, Option.join_eq_some_iff.mp hhead, h⟩
    simpa using this
  refine (hears.check message fun past => ∀ d ∈ past, ¬ Observed conn d).conseq
    (fun _ hs => hs) ?_ ?_
  · rintro _ _ ⟨past, hpast, rfl, -⟩ d hd ⟨baseMode, rfl, hmode⟩
    rcases List.mem_cons.mp hd with heq | hd
    · obtain ⟨hb, hhead, hmsg⟩ : ∃ hb, heartbeats.head?.join = some hb ∧ hb.msg =
          .heartbeat conn.targetSystem conn.targetComponent baseMode := by
        simpa [Option.map_eq_some_iff] using (eq_of_heq (Sigma.mk.inj heq).2).symm
      simp only [Heartbeat.msg, Msg.heartbeat.injEq] at hmsg
      exact (hforeign hb hhead).2 ⟨hmsg.1, hmsg.2.1⟩
    · exact hpast _ hd ⟨baseMode, rfl, hmode⟩
  · rintro _ _ ⟨-, -, -, harmed⟩
    obtain ⟨hb, hhead, harmed⟩ := (Option.any_eq_true _ _).mp harmed
    simp [(hforeign hb hhead).1] at harmed

end Check

theorem IsConnecting.never_activates {op : ToolOp} (hop : IsConnecting op) : Never Activates
    op := by
  cases op <;> first | exact hop.elim | exact fun _ h => h

theorem IsConnecting.never_reboots {op : ToolOp} (hop : IsConnecting op) : Never Reboots op := by
  cases op <;> first | exact hop.elim | exact fun _ h => h

theorem IsConnecting.ne_heartbeatPoll {op : ToolOp} (hop : IsConnecting op) :
    op ≠ heartbeatPoll := by
  rintro rfl
  exact hop

theorem never_observed {conn : Conn} {op : ToolOp} (hop : op ≠ heartbeatPoll) :
    Never (Observed conn) op := by
  rintro r ⟨baseMode, h, -⟩
  exact hop (congrArg Sigma.fst h)

section Enough

variable {conn : Conn} {heartbeats : List (Option Heartbeat)} {o : Oracle toolSignature}

theorem Hears.openLink_guarded {A : Call toolSignature → Prop} {α : Type}
    (hears : Hears conn heartbeats o) (htrust : Trusted conn heartbeats) (message : String)
    (hA : Never A heartbeatPoll) (hconnecting : ∀ op, IsConnecting op → Never A op)
    (config : ConnectionConfig) (hn : config.retryAttempts ≠ 0) (rest : Conn → ToolM α) :
    Triple o.handler (Preceded A (Observed conn))
      (openLink config fun c => liftLink (refuseArmed message) >>= fun _ => rest c)
      (fun _ past => Preceded A (Observed conn) past ∧ ∃ d ∈ past, Observed conn d)
      fun _ => Preceded A (Observed conn) := by
  have hI : ∀ op, IsConnecting op → Keeps o.handler (Preceded A (Observed conn)) op :=
    fun op hop => keeps_preceded (hconnecting op hop)
  refine openLink_triple config hn (hears.connect hI config) hI (fun _ hs => hs) (fun _ hs => hs)
    hI (fun _ => keeps_preceded_of_mem _) fun c => ?_
  refine Triple.bind ((hears.guard htrust message hA).pre fun _ hs => hs.2) fun _ => ?_
  exact (Preserves.always keeps_preceded_of_mem (rest c)).onError fun _ _ hs => hs.1

open ZoneSelect in
theorem selectZone_guarded (hears : Hears conn heartbeats o) (shapely : Shapely)
    (options : SelectOptions) (hcond : options.dryRun = true ∨ Trusted conn heartbeats) :
    Preserves o.handler (Preceded Activates (Observed conn)) (selectZone shapely options) := by
  have hkeep : ∀ op, Never Activates op → Keeps o.handler (Preceded Activates (Observed conn)) op :=
    fun op => keeps_preceded
  refine (requiresConfirmation_preserves _ _ _ (hkeep (.prompt _) fun _ h => h)).bind fun _ => ?_
  refine (ask_preserves (hkeep (.readYaml _) fun _ h => h)).bind fun file => ?_
  refine (orExit_preserves (raised_preserves _)).bind fun zone => ?_
  split_ifs with hdry
  · refine (ask_preserves (hkeep (.generateWaypoints _) fun _ h => h)).bind fun answer => ?_
    exact (raised_preserves _).bind fun _ => (raised_preserves _).bind fun _ => Preserves.pure _
  · have htrust := hcond.resolve_left hdry
    exact (hears.openLink_guarded htrust _ (fun _ h => h) (fun _ hop => hop.never_activates) _
      (by simp) _).post fun _ _ hs => hs.1

/-! The steps before the check keep whatever all calls but the poll and the reboot keep. -/

section Steps

variable {I : List (Call toolSignature) → Prop}
  (hkeep : ∀ op, Never Reboots op → op ≠ heartbeatPoll → Keeps o.handler I op)
  (options : UpdateOptions)

include hkeep

open FirmwareUpdate

theorem readRunningVersion_preserves (c : Conn) :
    Preserves o.handler I (liftLink (readRunningVersion c)) := by
  refine Preserves.of_calls (A := fun op => Never Reboots op ∧ op ≠ heartbeatPoll)
    (fun op hop => hkeep op hop.1 hop.2) (Program.Calls.mapOps ?_)
  refine Program.Calls.bind (Program.calls_perform (S := linkSignature) ?_) fun _ =>
    Program.Calls.bind (Program.calls_perform (S := linkSignature) ?_) fun answer => ?_
  · exact ⟨fun _ h => by simp [Reboots, rebootCommand] at h, by simp⟩
  · exact ⟨fun _ h => h, by simp⟩
  · split <;> simp

theorem openLink_preserves_quiet {α : Type} {body : Conn → ToolM α}
    (hbody : ∀ c, Preserves o.handler I (body c)) :
    Preserves o.handler I (openLink (config options) body) :=
  openLink_preserves (config options) (by simp [config])
    (fun op hop => hkeep op hop.never_reboots hop.ne_heartbeatPoll) hbody

theorem readVersions_triple : Triple o.handler I (readVersions options)
    (fun _ past => options.offline = false ∧ I past) fun _ => I := by
  refine Triple.bind (orExit_preserves (openLink_preserves_quiet hkeep options
    (readRunningVersion_preserves hkeep))) fun running => ?_
  cases running with
  | none => exact Triple.throw fun _ hs => hs
  | some running =>
    cases hoff : options.offline with
    | true => exact Triple.throw fun _ hs => hs
    | false =>
      refine Triple.bind (ask_preserves (hkeep (.checkRemoteVersion _) (fun _ h => h) (by simp)))
        fun latest => ?_
      cases latest with
      | none => exact Triple.throw fun _ hs => hs
      | some latest => exact Triple.pure fun _ hs => ⟨rfl, hs⟩

theorem fetchImage_preserves (latest : ℤ × ℤ × ℤ) :
    Preserves o.handler I (fetchImage options latest) := by
  refine (ask_preserves (hkeep (.downloadFirmware ..) (fun _ h => h) (by simp))).bind fun path => ?_
  cases path with
  | none => exact Preserves.throw _
  | some path =>
    refine (orExit_preserves ?_).bind fun _ => Preserves.pure _
    exact (ask_preserves (hkeep (.validateApj _) (fun _ h => h) (by simp))).bind fun _ =>
      raised_preserves _

theorem snapshotParams_triple :
    Triple o.handler I (snapshotParams options) (fun _ => I) fun _ _ => False := by
  refine Triple.tryCatch (E := fun _ => I) ?_ fun _ => Triple.pure fun _ hs => hs
  refine Preserves.bind (openLink_preserves_quiet hkeep options fun c => ?_) fun _ => ?_
  · exact (ask_preserves (hkeep .fetchParams (fun _ h => h) (by simp))).bind fun _ =>
      raised_preserves _
  · exact (ask_preserves (hkeep .writeJsonSnapshot (fun _ h => h) (by simp))).bind fun _ =>
      raised_preserves _

theorem confirmed_triple (running : FirmwareInfo) (latest : ℤ × ℤ × ℤ) :
    Triple o.handler I (confirmed options running latest)
      (fun go past => (go = true → options.dryRun = false) ∧ I past) fun _ => I := by
  unfold confirmed
  split_ifs with hdry hyes
  · exact Triple.pure fun _ hs => ⟨by simp, hs⟩
  · exact Triple.pure fun _ hs => ⟨fun _ => by simpa using hdry, hs⟩
  · exact (ask_preserves (hkeep (.prompt _) (fun _ h => h) (by simp))).post
      fun _ _ hs => ⟨fun _ => by simpa using hdry, hs⟩

end Steps

open FirmwareUpdate in
theorem firmwareUpdate_guarded (hears : Hears conn heartbeats o) (options : UpdateOptions)
    (hcond : options.dryRun = true ∨ options.offline = true ∨ Trusted conn heartbeats) :
    Preserves o.handler (Preceded Reboots (Observed conn)) (firmwareUpdate options) := by
  have hkeep : ∀ op, Never Reboots op → op ≠ heartbeatPoll →
      Keeps o.handler (Preceded Reboots (Observed conn)) op := fun op hop _ => keeps_preceded hop
  refine (readVersions_triple hkeep options).bind ?_
  rintro ⟨running, latest⟩
  refine Triple.assuming fun hoffline => ?_
  dsimp only
  split_ifs
  · exact Preserves.pure _
  refine Triple.bind (fetchImage_preserves hkeep options latest) fun path =>
    Triple.bind (snapshotParams_triple hkeep options).neverFails fun _ =>
      (confirmed_triple hkeep options running latest).bind fun go => Triple.assuming fun hgo => ?_
  cases go with
  | false => exact Preserves.pure _
  | true =>
    have htrust : Trusted conn heartbeats := by simpa [hgo rfl, hoffline] using hcond
    have hcheck := hears.openLink_guarded htrust
      "FC is armed — cannot flash firmware. Disarm first." (fun _ h => h)
      (fun _ hop => hop.never_reboots) (config options) (by simp [config]) fun _ => pure ()
    simp only [bind_pure_unit] at hcheck
    have hexit : Triple o.handler (Preceded Reboots (Observed conn))
        (orExit "" (openLink (config options) fun _ => liftLink checkNotArmed))
        (fun _ past => Preceded Reboots (Observed conn) past ∧ ∃ d ∈ past, Observed conn d)
        fun _ => Preceded Reboots (Observed conn) :=
      Triple.tryCatch hcheck fun _ => Triple.throw fun _ hs => hs
    have hrest : ∀ p : ToolM Unit, Triple o.handler
        (fun past => Preceded Reboots (Observed conn) past ∧ ∃ d ∈ past, Observed conn d) p
        (fun _ => Preceded Reboots (Observed conn)) fun _ => Preceded Reboots (Observed conn) :=
      fun p => (Preserves.always keeps_preceded_of_mem p).conseq (fun _ hs => hs)
        (fun _ _ hs => hs.1) fun _ _ hs => hs.1
    simp only [enterBootloader, bind_assoc]
    exact hexit.bind fun _ => hrest _

end Enough

section Needed

variable (conn : Conn) (heartbeats : List (Option Heartbeat))

/-- Surroundings in which everything but the remote activation goes well. -/
def obliging : Oracle toolSignature
  | past, .link (.recvMatch types) =>
    if types = [.heartbeat] then heartbeats[polled past]?.join.map Heartbeat.msg
    else if types = [.autopilotVersion] then some (.autopilotVersion 0)
    else none
  | _, .link (.send _ _) => ()
  | _, .link (.polls _) => (0 : ℕ)
  | _, .mavlinkConnection _ => .ok ()
  | _, .waitHeartbeat _ => some conn
  | _, .close | _, .sleep _ => ()
  | _, .prompt _ => true
  | _, .readYaml _ => triangleFile (.float (.fin 2))
  | _, .generateWaypoints _ => .ok [⟨.fin 1, .fin 0⟩]
  | _, .ssh _ _ => .error (.ssh "ssh timed out")
  | _, .writeZoneSnapshot .. => .ok ()
  | _, .checkRemoteVersion _ => some (4, 6, 3)
  | _, .downloadFirmware .. => some "ardurover-stable-4.6.3.apj"
  | _, .validateApj _ => .ok ()
  | _, .fetchParams => .ok ()
  | _, .writeJsonSnapshot => .ok ()
  | _, .waitForBootloader port => .ok port
  | _, .flashFirmware .. => { success := true }

theorem obliging_hears : Hears conn heartbeats (obliging conn heartbeats) where
  target _ _ _ h := (Option.some.inj h).symm
  heartbeat _ := rfl

/-- Nothing of the kind that the check is for has been seen. -/
abbrev Unseen (past : List (Call toolSignature)) : Prop := ∀ d ∈ past, ¬ Observed conn d

theorem keeps_unseen {o : Oracle toolSignature} (op : ToolOp) (hop : op ≠ heartbeatPoll) :
    Keeps o.handler (Unseen conn) op := keeps_none (never_observed hop)

/-- A body on a link that these surroundings open at once. -/
theorem obliging_openLink {α : Type} (config : ConnectionConfig) (hn : config.retryAttempts ≠ 0)
    {body : Conn → ToolM α} {Q : α → List (Call toolSignature) → Prop}
    {E : List (Call toolSignature) → Prop}
    (hE : ∀ op, IsConnecting op → Keeps (obliging conn heartbeats).handler E op)
    (hQ : ∀ a, Keeps (obliging conn heartbeats).handler (Q a) .close)
    (hbody : ∀ c, Triple (obliging conn heartbeats).handler (Fresh (Unseen conn)) (body c) Q
      fun _ => E) :
    Triple (obliging conn heartbeats).handler (Unseen conn) (openLink config body) Q
      fun _ => E := by
  have hconnect : Triple (obliging conn heartbeats).handler (Unseen conn) (connectOnce config)
      (fun c s => c = conn ∧ c = conn ∧ Fresh (Unseen conn) s) fun _ _ => False :=
    ((obliging_hears conn heartbeats).connect
      (fun op hop => keeps_unseen conn op hop.ne_heartbeatPoll) config).returns fun _ _ => rfl
  exact openLink_triple config hn hconnect (fun _ _ _ hs => hs) (fun _ hs => hs.elim)
    (fun _ hs => hs.elim) hE hQ fun c =>
      (hbody c).pre fun _ hs => hs.2.2

variable {conn heartbeats}

theorem uploadZoneAtomically_first_call (c : Conn)
    (missionItems fenceItems rallyItems : List MissionItem) (hne : missionItems ≠ []) :
    ∃ next, uploadZoneAtomically c missionItems fenceItems rallyItems =
      .call (.send c (.missionCount missionItems.length 0)) next := by
  rw [uploadZoneAtomically_eq, uploads, uploadMission_eq hne]
  exact ⟨_, rfl⟩

theorem triangle_zoneItems : ∃ fenceItems rallyItems,
    ZoneSelect.zoneItems (triangleZone (.fin 2)) [⟨.fin 1, .fin 0⟩] =
      .ok (triangleItems (.fin 2), fenceItems, rallyItems) := by
  have hfence : (zoneToFence (triangleZone (.fin 2))).isOk = true := by decide +kernel
  have hrally : (zoneToRally (triangleZone (.fin 2))).isOk = true := by decide +kernel
  obtain ⟨fenceItems, hfence⟩ := exists_ok_of_isOk hfence
  obtain ⟨rallyItems, hrally⟩ := exists_ok_of_isOk hrally
  refine ⟨fenceItems, rallyItems, ?_⟩
  simp [ZoneSelect.zoneItems, triangleZone_items, hfence, hrally]

open ZoneSelect in
theorem planAndUpload_violates (c : Conn) :
    Triple (obliging conn heartbeats).handler (Unseen conn)
      (planAndUpload c (triangleZone (.fin 2)))
      (fun _ past => ¬ Preceded Activates (Observed conn) past)
      fun _ past => ¬ Preceded Activates (Observed conn) past := by
  obtain ⟨fenceItems, rallyItems, hitems⟩ := triangle_zoneItems
  obtain ⟨next, hnext⟩ := uploadZoneAtomically_first_call c (triangleItems (.fin 2)) fenceItems
    rallyItems (by simp [triangleItems])
  have hplan : Triple (obliging conn heartbeats).handler (Unseen conn)
      (ask (.generateWaypoints (triangleZone (.fin 2))))
      (fun answer s => answer = .ok [⟨.fin 1, .fin 0⟩] ∧ Unseen conn s) fun _ _ => False :=
    (ask_triple (E := fun _ _ => False) (keeps_unseen conn _ (by simp))).returns fun _ _ => rfl
  refine Triple.bind hplan.neverFails
    fun answer => Triple.assuming ?_
  rintro rfl
  rw [raised_ok_bind, if_neg (by simp), hitems, raised_ok_bind]
  dsimp only
  rw [hnext]
  exact Program.first_call_violates (S := toolSignature) (.link (.send c _)) _ fun _ => trivial

open ZoneSelect in
theorem selectZone_violates (options : SelectOptions) (hdry : options.dryRun = false)
    (htrust : ¬ Trusted conn heartbeats) :
    Triple (obliging conn heartbeats).handler (Unseen conn)
      (selectZone ⟨fun _ => .ok true⟩ options)
      (fun _ past => ¬ Preceded Activates (Observed conn) past)
      fun _ past => ¬ Preceded Activates (Observed conn) past := by
  have hload : loadZoneConfig ⟨fun _ => .ok true⟩ options.zoneFile
    (triangleFile (.float (.fin 2))) =
      .ok (triangleZone (.fin 2)) := by
    change coerce _ _ = _
    decide +kernel
  have hconfirm : Triple (obliging conn heartbeats).handler (Unseen conn)
      (confirmZoneSelect options.dryRun options.yes) (fun a s => a = () ∧ Unseen conn s)
      fun _ past => ¬ Preceded Activates (Observed conn) past := by
    refine Triple.returns (requiresConfirmation_preserves _ _ _ (keeps_unseen conn _ (by simp)))
      fun _ _ => ?_
    rw [hdry]
    cases options.yes <;> rfl
  have hread : Triple (obliging conn heartbeats).handler (Unseen conn)
      (ask (.readYaml options.zoneFile))
      (fun file s => file = triangleFile (.float (.fin 2)) ∧ Unseen conn s)
      fun _ past => ¬ Preceded Activates (Observed conn) past :=
    (ask_preserves (keeps_unseen conn _ (by simp))).returns fun _ _ => rfl
  refine hconfirm.bind fun _ => Triple.assuming fun _ => hread.bind fun file => Triple.assuming ?_
  rintro rfl
  rw [hload]
  change Triple _ _ (if options.dryRun = true then _ else
    openLink _ (switchZone (triangleZone _) _)) _ _
  rw [if_neg (by simp [hdry])]
  refine obliging_openLink conn heartbeats _ (by simp) (fun _ _ => keeps_not_preceded _)
    (fun _ => keeps_not_preceded _) fun c => ?_
  have hblind := (obliging_hears conn heartbeats).blind htrust
    "FC is armed — cannot switch zones. Disarm first."
  refine Triple.bind hblind.neverFails
    fun _ => ?_
  cases options.skipSlam with
  | true => exact planAndUpload_violates c
  | false => exact Program.first_call_violates (S := toolSignature) (.ssh _ _) _ fun _ => trivial

open FirmwareUpdate in
theorem enterBootloader_violates (options : UpdateOptions) (htrust : ¬ Trusted conn heartbeats) :
    Triple (obliging conn heartbeats).handler (Unseen conn) (enterBootloader options)
      (fun _ past => ¬ Preceded Reboots (Observed conn) past)
      fun _ past => ¬ Preceded Reboots (Observed conn) past := by
  have hcheck : Triple (obliging conn heartbeats).handler (Unseen conn)
      (openLink (config options) fun _ => liftLink checkNotArmed) (fun _ => Unseen conn)
      fun _ _ => False :=
    obliging_openLink conn heartbeats (config options) (by simp [config])
      (E := fun _ => False) (fun _ _ _ hs => hs) (fun _ => keeps_unseen conn _ (by simp))
      fun _ => (obliging_hears conn heartbeats).blind htrust _
  have hreboot : Triple (obliging conn heartbeats).handler (Unseen conn)
      (openLink (config options) rebootToBootloader)
      (fun _ past => ¬ Preceded Reboots (Observed conn) past)
      fun _ past => ¬ Preceded Reboots (Observed conn) past := by
    refine obliging_openLink conn heartbeats (config options) (by simp [config])
      (fun _ _ => keeps_not_preceded _) (fun _ => keeps_not_preceded _) fun c => ?_
    exact (Program.first_call_violates (S := toolSignature) (.link (.send c rebootCommand)) _
      fun _ => rfl).pre fun _ hs => hs.1
  refine Triple.bind (Triple.tryCatch hcheck fun _ => Triple.throw fun _ hs => False.elim hs)
    fun _ => ?_
  exact Triple.tryCatch hreboot fun _ => Triple.throw fun _ hs => hs

open FirmwareUpdate in
theorem firmwareUpdate_violates (options : UpdateOptions) (hdry : options.dryRun = false)
    (hoff : options.offline = false) (htrust : ¬ Trusted conn heartbeats) :
    Triple (obliging conn heartbeats).handler (Unseen conn) (firmwareUpdate options)
      (fun _ past => ¬ Preceded Reboots (Observed conn) past)
      fun _ past => ¬ Preceded Reboots (Observed conn) past := by
  have hkeep : ∀ op, Never Reboots op → op ≠ heartbeatPoll →
      Keeps (obliging conn heartbeats).handler (Unseen conn) op := fun op _ => keeps_unseen conn op
  have hversions : Triple (obliging conn heartbeats).handler (Unseen conn) (readVersions options)
      (fun versions s => versions = (firmwareInfo 0, (4, 6, 3)) ∧ options.offline = false ∧
        Unseen conn s) fun _ past => ¬ Preceded Reboots (Observed conn) past := by
    refine (readVersions_triple hkeep options).returns fun _ _ => ?_
    simp only [readVersions, hoff]
    rfl
  refine hversions.bind fun versions => Triple.assuming ?_
  rintro rfl
  refine Triple.assuming fun _ => ?_
  dsimp only
  rw [if_neg (by simp [versionLe, firmwareInfo, decodeFlightSwVersion])]
  have himage : Triple (obliging conn heartbeats).handler (Unseen conn)
      (fetchImage options (4, 6, 3))
      (fun path s => path = "ardurover-stable-4.6.3.apj" ∧ Unseen conn s)
      fun _ past => ¬ Preceded Reboots (Observed conn) past :=
    (fetchImage_preserves hkeep options _).returns fun _ _ => rfl
  have hconfirmed : Triple (obliging conn heartbeats).handler (Unseen conn)
      (confirmed options (firmwareInfo 0) (4, 6, 3))
      (fun go s => go = true ∧ (go = true → options.dryRun = false) ∧ Unseen conn s)
      fun _ past => ¬ Preceded Reboots (Observed conn) past := by
    refine (confirmed_triple hkeep options _ _).returns fun _ _ => ?_
    simp only [confirmed, hdry]
    cases options.yes <;> rfl
  refine himage.bind fun path => Triple.assuming fun _ => Triple.bind
    (snapshotParams_triple hkeep options).neverFails fun _ => hconfirmed.bind fun go =>
      Triple.assuming ?_
  rintro rfl
  rw [if_pos rfl]
  refine Triple.assuming fun _ => (enterBootloader_violates options htrust).bind fun _ => ?_
  exact Preserves.always keeps_not_preceded _

end Needed

/-- Whatever else happens, the commands act only after a disarmed heartbeat of
the target exactly when they do not get that far or the first heartbeat comes
from the target or is armed. -/
theorem armedGuard_iff (conn : Conn) (heartbeats : List (Option Heartbeat))
    (select : SelectOptions) (update : UpdateOptions) :
    ((∀ shapely o, Hears conn heartbeats o →
        Preceded Activates (Observed conn) ((selectZone shapely select).trace o)) ↔
      select.dryRun = true ∨ Trusted conn heartbeats) ∧
    ((∀ o, Hears conn heartbeats o →
        Preceded Reboots (Observed conn) ((firmwareUpdate update).trace o)) ↔
      update.dryRun = true ∨ update.offline = true ∨ Trusted conn heartbeats) := by
  have hhears := obliging_hears conn heartbeats
  have hempty : Unseen conn [] := fun _ h => absurd h List.not_mem_nil
  refine ⟨⟨fun hall => ?_, fun hcond shapely o hears => ?_⟩,
    ⟨fun hall => ?_, fun hcond o hears => ?_⟩⟩
  · by_contra hno
    obtain ⟨hdry, htrust⟩ := not_or.mp hno
    apply (selectZone_violates select (by simpa using hdry) htrust).state hempty
    exact hall _ _ hhears
  · exact (selectZone_guarded hears shapely select hcond).state trivial
  · by_contra hno
    simp only [not_or, Bool.not_eq_true] at hno
    obtain ⟨hdry, hoff, htrust⟩ := hno
    have hunguarded := (firmwareUpdate_violates update hdry hoff htrust).state hempty
    exact absurd hhears (mt (hall (obliging conn heartbeats)) hunguarded)
  · exact (firmwareUpdate_guarded hears update hcond).state trivial

/-- Silence on the link: the zone switch has the Jetson switch and the update
reboots the flight controller, and neither has seen a heartbeat. -/
theorem armedGuard_silence :
    let o := obliging ⟨1, 1⟩ []
    Hears ⟨1, 1⟩ [] o ∧
    ¬ Preceded Activates (Observed ⟨1, 1⟩)
      ((selectZone ⟨fun _ => .ok true⟩ { zoneFile := "zones/ne.yaml", yes := true }).trace o) ∧
    ¬ Preceded Reboots (Observed ⟨1, 1⟩) ((firmwareUpdate { yes := true }).trace o) := by
  have htrust : ¬ Trusted ⟨1, 1⟩ [] := by simp [Trusted]
  have hempty : Unseen ⟨1, 1⟩ [] := fun _ h => absurd h List.not_mem_nil
  exact ⟨obliging_hears _ _, (selectZone_violates _ rfl htrust).state hempty,
    (firmwareUpdate_violates _ rfl rfl htrust).state hempty⟩

end MowerRover.Cli
