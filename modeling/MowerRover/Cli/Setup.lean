import MowerRover.Config.Laptop
import MowerRover.Effects.Trace
import MowerRover.Json.Loads
import MowerRover.Pixhawk.Apj
import MowerRover.Transport.Ssh

/-!
# The set-up wizard of the laptop

Six steps, each with a check that may find it done already. The second step
settles which Jetson is meant; every later step speaks to that one, and the
fifth writes it into the configuration, from which all other commands take it.
-/

namespace MowerRover

/-- A name without its last dot and what follows, when neither side of the dot is empty. -/
def stemOf (name : List Char) : List Char :=
  let suffix := (name.reverse.takeWhile (· ≠ '.')).reverse
  let stem := name.take (name.length - suffix.length - 1)
  if suffix = [] ∨ stem = [] then name else stem

/-- The text of `path.with_suffix(suffix)`. -/
def PosixPath.withSuffix (suffix : List Char) (p : PosixPath) : Except PyError String :=
  match p.names.getLast? with
  | some name =>
    let names := p.names.dropLast ++ [stemOf name ++ suffix]
    pure (String.ofList (p.root.text ++ ['/'].intercalate names))
  | none => throw (.value s!"PosixPath('{String.ofList p.text}') has an empty name")

namespace Cli.Setup

open Effects Config Transport
open Zone (YamlFile)

def defaultHost : String := "10.0.0.42"
def defaultUser : String := "mower"

/-- What the wizard asks of the operator and of the laptop. -/
inductive SetupOp
  | pathExists (path : String)
  | mkdirParent (path : String)
  | which (name : String)
  | run (argv : List String)
  | shell (command : String)
  | readConfig
  | writeConfig (payload : List (Yaml × Yaml))
  | prompt (text default : String)

abbrev setupSignature : Signature where
  Op := SetupOp
  Ans
    | .pathExists _ => Bool
    | .mkdirParent _ => Except PyError Unit
    | .which _ => Option String
    | .run _ | .shell _ => Completed
    | .readConfig => Except PyError YamlFile
    | .writeConfig _ => Except PyError Unit
    | .prompt _ _ => Except PyError String

abbrev SetupM := Program setupSignature PyError

def ask (op : SetupOp) : SetupM (setupSignature.Ans op) := Program.perform (S := setupSignature) op

/-- What does not change while the wizard runs. -/
structure Laptop where
  py : PyText
  homes : Homes
  env : String → Option String
  windows : Bool
  configPath : String
  defaultKeyPath : PosixPath

structure SetupOptions where
  host : Option String := none
  user : Option String := none
  key : Option PosixPath := none
  force : Bool := false

structure SetupContext where
  host : Option String := none
  user : Option String := none
  keyPath : PosixPath
  force : Bool := false
  deriving DecidableEq

def SetupOptions.context (opts : SetupOptions) (laptop : Laptop) : SetupContext :=
  ⟨opts.host, opts.user, opts.key.getD laptop.defaultKeyPath, opts.force⟩

/-- The truth value of a text that may be missing. -/
def given (text : Option String) : Bool := text.any (· ≠ "")

def SetupContext.keyText (ctx : SetupContext) : String := String.ofList ctx.keyPath.text

/-- `assert ctx.host and ctx.user` -/
def SetupContext.names (ctx : SetupContext) : Except PyError (String × String) :=
  match ctx.host, ctx.user with
  | some host, some user => if host ≠ "" ∧ user ≠ "" then pure (host, user) else throw (.other "")
  | _, _ => throw (.other "")

def succeeded : Completed → Bool
  | .exited returncode _ _ => returncode = 0
  | _ => false

/-- Only a timeout is caught, and a return code other than zero. -/
def orExit : Completed → Except PyError Unit
  | .exited returncode _ _ => if returncode = 0 then pure () else throw (.exit 3 "")
  | .timeoutExpired => throw (.exit 3 "")
  | .fileNotFound message => throw (.fileNotFound message)

variable (laptop : Laptop)

/-- `load_laptop_config`; nothing when it raises a `LaptopConfigError`. -/
def tryLoad : SetupM (Option LaptopConfig) := do
  let file ← Program.ofExcept (← ask .readConfig)
  match loadLaptopConfig laptop.py laptop.homes laptop.configPath file with
  | .ok config => pure (some config)
  | .error (.value _) => pure none
  | .error x => throw x

def keyExists (ctx : SetupContext) : SetupM (Bool × SetupContext) := do
  return (← ask (.pathExists ctx.keyText), ctx)

def keygenArgv (key : String) : List String :=
  ["ssh-keygen", "-t", "ed25519", "-f", key, "-N", "", "-C", "mower-rover-setup"]

def generateKey (ctx : SetupContext) : SetupM SetupContext := do
  Program.ofExcept (← ask (.mkdirParent ctx.keyText))
  match ← ask (.run (keygenArgv ctx.keyText)) with
  | .fileNotFound _ => throw (.exit 3 "")
  | .timeoutExpired =>
    let argv := laptop.py.repr (.list ((keygenArgv ctx.keyText).map .str))
    throw (.other s!"Command '{argv}' timed out after 30 seconds")
  | .exited returncode _ _ => if returncode = 0 then pure ctx else throw (.exit 3 "")

def endpointConfigured (ctx : SetupContext) : SetupM (Bool × SetupContext) := do
  let envHost := laptop.env "MOWER_JETSON_HOST"
  let envUser := laptop.env "MOWER_JETSON_USER"
  if given ctx.host && given ctx.user then pure (true, ctx)
  else if given envHost && given envUser then
    pure (true, { ctx with host := envHost, user := envUser })
  else
    match (← tryLoad laptop).bind (·.jetson) with
    | some e =>
      if e.host ≠ "" ∧ e.user ≠ "" then
        pure (true, { ctx with host := some e.host, user := some e.user })
      else pure (false, ctx)
    | none => pure (false, ctx)

/-- `typer.prompt(text, default=default)` -/
def promptText (text default : String) : SetupM String := do
  let typed ← Program.ofExcept (← ask (.prompt text default))
  return if typed = "" then default else typed

/-- The text, or what the operator types in its place. -/
def orPrompt (value : Option String) (text default : String) : SetupM (Option String) :=
  if given value then pure value else some <$> promptText text default

def promptEndpoint (ctx : SetupContext) : SetupM SetupContext := do
  let host ← orPrompt ctx.host "Jetson host / IP" defaultHost
  let user ← orPrompt ctx.user "Jetson SSH user" defaultUser
  return { ctx with host := host, user := user }

def pingArgv (host : String) : List String :=
  if laptop.windows then ["ping", "-n", "1", "-w", "3000", host]
  else ["ping", "-c", "1", "-W", "3", host]

def pingOk (ctx : SetupContext) : SetupM Bool :=
  match ctx.host with
  | none => throw (.other "")
  | some host => do return succeeded (← ask (.run (pingArgv laptop host)))

def checkConnectivity (ctx : SetupContext) : SetupM SetupContext := do
  if ← pingOk laptop ctx then pure ctx else throw (.exit 3 "")

def authArgv (ssh key host user : String) : List String :=
  [ssh, "-o", "BatchMode=yes", "-o", "ConnectTimeout=5", "-o", "StrictHostKeyChecking=accept-new",
    "-o", "PasswordAuthentication=no", "-i", key, s!"{user}@{host}", "true"]

def keyAuthWorks (ctx : SetupContext) : SetupM Bool := do
  let (host, user) ← Program.ofExcept ctx.names
  match ← ask (.which "ssh") with
  | none => pure false
  | some ssh => return succeeded (← ask (.run (authArgv ssh ctx.keyText host user)))

def remoteCmd : String :=
  "mkdir -p ~/.ssh && chmod 700 ~/.ssh && cat >> ~/.ssh/authorized_keys" ++
    " && chmod 600 ~/.ssh/authorized_keys"

def typeCommand (ssh pub host user : String) : String :=
  s!"type \"{pub}\" | \"{ssh}\" -o StrictHostKeyChecking=accept-new {user}@{host} \"{remoteCmd}\""

def catCommand (ssh pub host user : String) : String :=
  s!"cat \"{pub}\" | \"{ssh}\" -o StrictHostKeyChecking=accept-new {user}@{host} '{remoteCmd}'"

def copyIdArgv (sshCopyId pub host user : String) : List String :=
  [sshCopyId, "-i", pub, s!"{user}@{host}"]

/-- The public key is brought over by whatever program there is. -/
def bringKey (ssh pub host user : String) : SetupM Completed := do
  if laptop.windows then ask (.shell (typeCommand ssh pub host user))
  else
    match ← ask (.which "ssh-copy-id") with
    | some sshCopyId => ask (.run (copyIdArgv sshCopyId pub host user))
    | none => ask (.shell (catCommand ssh pub host user))

def deployKey (ctx : SetupContext) : SetupM SetupContext := do
  let (host, user) ← Program.ofExcept ctx.names
  let pub ← Program.ofExcept (ctx.keyPath.withSuffix ".pub".toList)
  if !(← ask (.pathExists pub)) then throw (.exit 3 "")
  else
    match ← ask (.which "ssh") with
    | none => throw (.exit 3 "")
    | some ssh => do
      Program.ofExcept (orExit (← bringKey laptop ssh pub host user))
      return ctx

def configExists (ctx : SetupContext) : SetupM Bool := do
  let (host, user) ← Program.ofExcept ctx.names
  match (← tryLoad laptop).bind (·.jetson) with
  | none => pure false
  | some e => pure (e.host = host ∧ e.user = user ∧ e.keyPath = some ctx.keyPath)

/-- The endpoint that is written, always at port 22. -/
def endpointOf (host user : String) (key : PosixPath) : Config.JetsonEndpoint :=
  ⟨host, user, .int 22, some key⟩

/-- The configuration with this endpoint in the place of its own. -/
def withEndpoint (c : LaptopConfig) (host user : String) (key : PosixPath) : LaptopConfig :=
  { c with jetson := some (endpointOf host user key) }

def writeConfig (ctx : SetupContext) : SetupM SetupContext := do
  let (host, user) ← Program.ofExcept ctx.names
  let existing := (← tryLoad laptop).getD {}
  let config := withEndpoint existing host user ctx.keyPath
  Program.ofExcept (← ask (.writeConfig config.payload))
  return ctx

def probeArgv : List String := ["mower-jetson", "probe", "--json"]

def clientOf (ssh : Option String) (host user : String) (key : String) : JetsonClient where
  endpoint := ⟨host, user, 22, some key⟩
  ssh := ssh

/-- Both binaries are looked for when the client is made. -/
def remoteProbe (ctx : SetupContext) : SetupM Transport.SshResult := do
  let (host, user) ← Program.ofExcept ctx.names
  let ssh ← ask (.which "ssh")
  let _ ← ask (.which "scp")
  ((clientOf ssh host user ctx.keyText).run probeArgv false "30.0").mapOps
    (T := setupSignature) SetupOp.run fun _ r => r

/-- What `for c in checks` goes over. -/
def itemsOf : Json.Value → Except PyError (List Json.Value)
  | .list values => pure values
  | .dict members => pure (members.map fun m => .str m.1)
  | .str s => pure (s.toList.map fun c => .str (String.singleton c))
  | value => throw (.type s!"'{Pixhawk.kindName value}' object is not iterable")

def isCriticalFail (c : Json.Value) : Except PyError Bool := do
  if Pixhawk.isStr "fail" (← Pixhawk.getItem "status" .null c) then
    return Pixhawk.isStr "critical" (← Pixhawk.getItem "severity" .null c)
  else return false

/-- No check of the list fails that is critical. -/
def noCriticalFails (checks : Json.Value) : Except PyError Bool := do
  return (← (← itemsOf checks).filterM isCriticalFail).isEmpty

def remoteProbeOk (ctx : SetupContext) : SetupM Bool := do
  match ← (remoteProbe ctx).attempt with
  | .error (.ssh _) => pure false
  | .error x => throw x
  | .ok result =>
    if !result.ok then pure false
    else
      match Json.loads result.stdout.toList with
      | .error _ => pure false
      | .ok checks => Program.ofExcept (noCriticalFails checks)

/-- A list or a dictionary is no key of the table of icons. -/
def printCheck (c : Json.Value) : Except PyError Unit := do
  match ← Pixhawk.getItem "status" (.str "?") c with
  | .list _ => throw (.type "unhashable type: 'list'")
  | .dict _ => throw (.type "unhashable type: 'dict'")
  | _ => pure ()

/-- A failed check is printed as the others are. -/
def runRemoteProbe (ctx : SetupContext) : SetupM SetupContext := do
  match ← (remoteProbe ctx).attempt with
  | .error (.ssh _) => throw (.exit 3 "")
  | .error x => throw x
  | .ok result =>
    if !result.ok then throw (.exit 3 "")
    else
      match Json.loads result.stdout.toList with
      | .error _ => throw (.exit 3 "")
      | .ok checks => do
        Program.ofExcept ((itemsOf checks).bind fun items => items.forM printCheck)
        return ctx

structure SetupStep where
  name : String
  description : String
  check : SetupContext → SetupM (Bool × SetupContext)
  execute : SetupContext → SetupM SetupContext

/-- A check that leaves the context as it is. -/
def pureCheck (check : SetupContext → SetupM Bool) (ctx : SetupContext) :
    SetupM (Bool × SetupContext) := do
  return (← check ctx, ctx)

def setupSteps : List SetupStep :=
  [⟨"ssh_key", "SSH key pair exists", keyExists, generateKey laptop⟩,
    ⟨"endpoint", "Jetson host/user configured", endpointConfigured laptop, promptEndpoint⟩,
    ⟨"connectivity", "Network connectivity to Jetson", pureCheck (pingOk laptop),
      checkConnectivity laptop⟩,
    ⟨"key_deployed", "SSH key deployed to Jetson", pureCheck keyAuthWorks, deployKey laptop⟩,
    ⟨"config", "laptop.yaml written with endpoint", pureCheck (configExists laptop),
      writeConfig laptop⟩,
    ⟨"verify", "Remote probe passes", pureCheck remoteProbeOk, runRemoteProbe⟩]

/-- With `--force` nothing is checked. -/
def runStep (ctx : SetupContext) (step : SetupStep) : SetupM SetupContext := do
  if ctx.force then step.execute ctx
  else
    let (satisfied, ctx) ← step.check ctx
    if satisfied then pure ctx else step.execute ctx

def setupCommand (opts : SetupOptions) : SetupM Unit := do
  let _ ← (setupSteps laptop).foldlM runStep (opts.context laptop)

end Cli.Setup

end MowerRover
