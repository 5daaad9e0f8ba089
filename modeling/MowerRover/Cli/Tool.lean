import MowerRover.Effects.Trace
import MowerRover.Mavlink.MissionVerify
import MowerRover.Zone.Config

/-!
# What a command can do

The commands of the laptop and of the Jetson talk to a flight controller over a
link they open and close, to the operator, to files, and to each other over
SSH. Collaborators whose inner working does not matter here (the planner, the
firmware server, the flasher, the parameter download) are single calls that may
answer anything.

`open_link` is a generator used as a context manager. An exception in the body
is thrown into the generator, which takes it for a failed attempt and goes
round its loop once more: either it connects again and yields a second time,
which `contextlib` reports as a `RuntimeError`, or it gives up with a
`ConnectionError`. In both cases the body is not run again and its own
exception is lost.
-/

namespace MowerRover.Cli

open Effects Mavlink Zone

structure ConnectionConfig where
  endpoint : String := "udp:127.0.0.1:14550"
  baud : ℕ := 57600
  sourceSystem : ℕ := 254
  sourceComponent : ℕ := 0
  heartbeatTimeoutS : ℚ := 10
  retryAttempts : ℕ := 3
  retryBackoffS : ℚ := 1
  deriving DecidableEq, Repr

structure SshResult where
  returncode : ℤ
  stdout : String := ""
  stderr : String := ""
  deriving DecidableEq, Repr

def SshResult.ok (result : SshResult) : Bool := result.returncode = 0

structure FlashResult where
  success : Bool
  errorMessage : Option String := none
  bytesFlashed : ℕ := 0
  deriving DecidableEq, Repr

inductive ToolOp
  | link (op : LinkOp)
  | mavlinkConnection (config : ConnectionConfig)
  /-- the connection knows its target from the first heartbeat on -/
  | waitHeartbeat (timeout : ℚ)
  | close
  | sleep (seconds : ℚ)
  | prompt (message : String)
  | readYaml (path : String)
  | generateWaypoints (zone : ZoneConfig)
  | ssh (argv : List String) (timeout : ℚ)
  | writeZoneSnapshot (zoneId : String) (waypointCount fenceCount : ℕ) (rallyPoint : LatLon)
  | checkRemoteVersion (track : String)
  | downloadFirmware (track : String) (version : ℤ × ℤ × ℤ) (cacheDir : String)
  | validateApj (path : String)
  | fetchParams
  | writeJsonSnapshot
  | waitForBootloader (port : String)
  | flashFirmware (port path : String)

abbrev toolSignature : Signature where
  Op := ToolOp
  Ans
    | .link op => linkSignature.Ans op
    | .mavlinkConnection _ => Except PyError Unit
    | .waitHeartbeat _ => Option Conn
    | .close | .sleep _ => Unit
    | .prompt _ => Bool
    | .readYaml _ => YamlFile
    | .generateWaypoints _ => Except PyError (List LatLon)
    | .ssh _ _ => Except PyError SshResult
    | .writeZoneSnapshot .. => Except PyError Unit
    | .checkRemoteVersion _ => Option (ℤ × ℤ × ℤ)
    | .downloadFirmware .. => Option String
    | .validateApj _ => Except PyError Unit
    | .fetchParams => Except PyError Unit
    | .writeJsonSnapshot => Except PyError Unit
    | .waitForBootloader _ => Except PyError String
    | .flashFirmware .. => FlashResult

abbrev ToolM := Program toolSignature PyError

/-- A call that only answers. -/
def ask (op : ToolOp) : ToolM (toolSignature.Ans op) := Program.perform (S := toolSignature) op

def raised {α : Type} (x : Except PyError α) : ToolM α := Program.ofExcept x

theorem raised_ok_bind {α β : Type} (a : α) (f : α → ToolM β) : (raised (.ok a) >>= f) = f a := rfl

def liftLink {α : Type} (p : LinkM α) : ToolM α :=
  p.mapOps (T := toolSignature) ToolOp.link fun _ r => r

/-- `try: p  except Exception: raise typer.Exit(..)`. -/
def orExit {α : Type} (message : String) (p : ToolM α) : ToolM α :=
  tryCatch p fun _ => throw (.exit 1 message)

/-- The decorator `requires_confirmation` around a function that does nothing itself. -/
def requiresConfirmation (message : String) (dryRun assumeYes : Bool) : ToolM Unit := do
  if dryRun || assumeYes then pure ()
  else if ← ask (.prompt message) then pure ()
  else throw (.confirmationAborted s!"Operator declined: {message}")

/-- The bit of `base_mode` that says the autopilot is armed. -/
def safetyArmed (baseMode : ℕ) : Bool := baseMode &&& 128 ≠ 0

/-- Whoever sent the next heartbeat must not be armed; silence is no objection. -/
def refuseArmed (message : String) : LinkM Unit := do
  match ← recvMatch [.heartbeat] with
  | some (.heartbeat _ _ baseMode) =>
    if safetyArmed baseMode then throw (.badParameter message) else pure ()
  | _ => pure ()

def connectOnce (config : ConnectionConfig) : ToolM Conn := do
  raised (← ask (.mavlinkConnection config))
  match ← ask (.waitHeartbeat config.heartbeatTimeoutS) with
  | none => throw (.connection "no heartbeat within timeout")
  | some conn => pure conn

/-- A computation with its exception as a value. -/
def attempt {α : Type} (p : ToolM α) : ToolM (Except PyError α) := Program.attempt p

/-- The attempts that are left, which are numbered from one on. -/
def backoff (config : ConnectionConfig) (remaining : ℕ) : ToolM Unit :=
  if remaining = 0 then pure ()
  else ask (.sleep (config.retryBackoffS * (config.retryAttempts - remaining : ℕ)))

def gaveUp (config : ConnectionConfig) (last : String) : PyError :=
  .connection
    s!"Failed to connect to {config.endpoint} after {config.retryAttempts} attempts: {last}"

/-- The rest of the generator's loop after the body has raised. -/
def openAgain {α : Type} (config : ConnectionConfig) : ℕ → String → ToolM α
  | 0, last => throw (gaveUp config last)
  | remaining + 1, _ => do
    match ← attempt (connectOnce config) with
    | .ok _ =>
      ask .close
      throw (.runtime "generator didn't stop after throw()")
    | .error exc =>
      backoff config remaining
      openAgain config remaining exc.str

def openAttempts {α : Type} (config : ConnectionConfig) (body : Conn → ToolM α) :
    ℕ → String → ToolM α
  | 0, last => throw (gaveUp config last)
  | remaining + 1, _ => do
    match ← attempt (connectOnce config) with
    | .ok conn =>
      match ← attempt (body conn) with
      | .ok a =>
        ask .close
        pure a
      | .error exc =>
        ask .close
        backoff config remaining
        openAgain config remaining exc.str
    | .error exc =>
      backoff config remaining
      openAttempts config body remaining exc.str

def openLink {α : Type} (config : ConnectionConfig) (body : Conn → ToolM α) : ToolM α :=
  openAttempts config body config.retryAttempts "None"

/-- The calls that opening and closing a link makes by itself. -/
def IsConnecting : ToolOp → Prop
  | .mavlinkConnection _ | .waitHeartbeat _ | .close | .sleep _ => True
  | _ => False

/-- The postcondition of a computation whose exception has become a value. -/
def Either {σ α : Type} (Q : α → σ → Prop) (E : PyError → σ → Prop) : Except PyError α → σ → Prop
  | .ok a => Q a
  | .error exc => E exc

section Rules

variable {σ τ α : Type} {h : Handler toolSignature σ τ} {P I : σ → Prop} {Q : α → σ → Prop}
  {E : PyError → σ → Prop}

theorem attempt_triple {p : ToolM α} (hp : Triple h P p Q E) :
    Triple h P (attempt p) (Either Q E) fun _ _ => False := by
  refine Triple.tryCatch (E := E) ?_ fun exc => Triple.pure fun s hs => hs
  exact Triple.bind hp fun a => Triple.pure fun s hs => hs

theorem ask_triple {op : ToolOp} {E : PyError → σ → Prop} (hop : Keeps h P op) :
    Triple h P (ask op) (fun _ => P) E := Triple.perform hop

theorem raised_triple {x : Except PyError α} {E : PyError → σ → Prop}
    (hE : ∀ exc s, P s → E exc s) : Triple h P (raised x) (fun _ => P) E :=
  Triple.ofExcept (fun _ _ _ hs => hs) fun exc _ s hs => hE exc s hs

theorem ask_preserves {op : ToolOp} (hop : Keeps h I op) : Preserves h I (ask op) :=
  Preserves.perform hop

theorem raised_preserves (x : Except PyError α) : Preserves h I (raised x) :=
  Preserves.ofExcept x

theorem orExit_preserves {p : ToolM α} {message : String} (hp : Preserves h I p) :
    Preserves h I (orExit message p) := hp.tryCatch fun _ => Preserves.throw _

theorem requiresConfirmation_preserves (message : String) (dryRun assumeYes : Bool)
    (hop : Keeps h I (.prompt message)) :
    Preserves h I (requiresConfirmation message dryRun assumeYes) := by
  unfold requiresConfirmation
  split_ifs
  · exact Preserves.pure _
  · refine (ask_preserves hop).bind fun accepted => ?_
    cases accepted with
    | true => exact Preserves.pure _
    | false => exact Preserves.throw _

theorem backoff_triple (config : ConnectionConfig) (remaining : ℕ) {E : PyError → σ → Prop}
    (hP : ∀ op, IsConnecting op → Keeps h P op) :
    Triple h P (backoff config remaining) (fun _ => P) E := by
  unfold backoff
  split_ifs
  · exact Triple.pure fun s hs => hs
  · exact ask_triple (hP (.sleep _) trivial)

variable (config : ConnectionConfig) {F : Conn → σ → Prop}

theorem connectOnce_triple (hI : ∀ op, IsConnecting op → Keeps h I op)
    (hF : ∀ t s conn, I s → (h (.waitHeartbeat t) s).1 = some conn →
      F conn (h (.waitHeartbeat t) s).2.1) :
    Triple h I (connectOnce config) F fun _ => I := by
  refine (ask_triple (hI (.mavlinkConnection config) trivial)).bind fun answer => ?_
  refine (raised_triple fun _ _ hs => hs).bind fun _ => ?_
  refine Triple.bind (Q := fun answer s => I s ∧ ∀ conn, answer = some conn → F conn s)
    (Triple.perform fun s hs => ⟨hI (.waitHeartbeat _) trivial s hs, fun conn => hF _ s conn hs⟩)
    fun answer => ?_
  cases answer with
  | none => exact Triple.throw fun s hs => hs.1
  | some conn => exact Triple.pure fun s hs => hs.2 conn rfl

theorem openAgain_triple {E : σ → Prop} (hE : ∀ op, IsConnecting op → Keeps h E op)
    (remaining : ℕ) (last : String) :
    Triple h E (openAgain config remaining last : ToolM α) (fun _ _ => False) fun _ => E := by
  induction remaining generalizing last with
  | zero => exact Triple.throw fun s hs => hs
  | succ remaining ih =>
    have hconnect := connectOnce_triple (F := fun _ => E) config hE fun t s _ hs _ =>
      hE (.waitHeartbeat t) trivial s hs
    refine Triple.bind (attempt_triple hconnect).neverFails fun answer => ?_
    cases answer with
    | ok conn =>
      exact (ask_triple (hE .close trivial)).bind fun _ => Triple.throw fun s hs => hs
    | error exc => exact (backoff_triple config remaining hE).bind fun _ => ih _

/-- One round of the generator's loop, with the rounds after a failed connection left open. -/
theorem openAttempts_triple {body : Conn → ToolM α} {J E : σ → Prop}
    (hconnect : Triple h I (connectOnce config) F fun _ => J)
    (hJ : ∀ op, IsConnecting op → Keeps h J op)
    (hE : ∀ op, IsConnecting op → Keeps h E op) (hQ : ∀ a, Keeps h (Q a) .close)
    (hbody : ∀ conn, Triple h (F conn) (body conn) Q fun _ => E) (remaining : ℕ) (last : String)
    (hrest : ∀ last, Triple h J (openAttempts config body remaining last) Q fun _ => E) :
    Triple h I (openAttempts config body (remaining + 1) last) Q fun _ => E := by
  refine Triple.bind (attempt_triple hconnect).neverFails fun answer => ?_
  cases answer with
  | error exc => exact (backoff_triple config remaining hJ).bind fun _ => hrest _
  | ok conn =>
    refine Triple.bind (attempt_triple (hbody conn)).neverFails fun ended => ?_
    cases ended with
    | ok a => exact (ask_triple (hQ a)).bind fun _ => Triple.pure fun s hs => hs
    | error exc =>
      refine (ask_triple (hE .close trivial)).bind fun _ =>
        (backoff_triple config remaining hE).bind fun _ => ?_
      exact (openAgain_triple config hE remaining _).post fun _ _ hs => hs.elim

/-- A body that is run on a fresh link, at most once. Before it `I` holds, after
a failed attempt to connect `J`, after an exception `E`. -/
theorem openLink_triple {body : Conn → ToolM α} {J E : σ → Prop} (hn : config.retryAttempts ≠ 0)
    (hconnect : Triple h I (connectOnce config) F fun _ => J)
    (hJ : ∀ op, IsConnecting op → Keeps h J op) (hJI : ∀ s, J s → I s) (hJE : ∀ s, J s → E s)
    (hE : ∀ op, IsConnecting op → Keeps h E op) (hQ : ∀ a, Keeps h (Q a) .close)
    (hbody : ∀ conn, Triple h (F conn) (body conn) Q fun _ => E) :
    Triple h I (openLink config body) Q fun _ => E := by
  have hloop : ∀ remaining last, Triple h I (openAttempts config body (remaining + 1) last) Q
      fun _ => E := by
    intro remaining
    induction remaining with
    | zero =>
      exact fun last => openAttempts_triple config hconnect hJ hE hQ hbody 0 last fun _ =>
        Triple.throw hJE
    | succ remaining ih =>
      exact fun last => openAttempts_triple config hconnect hJ hE hQ hbody _ last fun _ =>
        (ih _).pre hJI
  obtain ⟨n, hn⟩ := Nat.exists_eq_succ_of_ne_zero hn
  rw [openLink, hn]
  exact hloop n _

theorem openLink_preserves {body : Conn → ToolM α} (hn : config.retryAttempts ≠ 0)
    (hI : ∀ op, IsConnecting op → Keeps h I op) (hbody : ∀ conn, Preserves h I (body conn)) :
    Preserves h I (openLink config body) :=
  openLink_triple config hn
    (connectOnce_triple config hI fun t s _ hs _ => hI (.waitHeartbeat t) trivial s hs)
    hI (fun _ hs => hs) (fun _ hs => hs) hI (fun _ => hI .close trivial) hbody

end Rules

end MowerRover.Cli
