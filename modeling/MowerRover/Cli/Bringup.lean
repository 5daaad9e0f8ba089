import MowerRover.Effects.Program

/-!
# Provisioning the Jetson

`mower jetson bringup` goes through its steps in order. What is satisfied is
skipped, what fails ends the run, or is noted down under `--continue-on-error`
unless the step is a gate. With `--parallel-builds` the two long builds share
one turn, which has a logic of its own: it stands before the tests for
`--dry-run` and `--from-step`, and the threads catch only what the loop would
note down.

What a step prints, its description and the confirmation it asks for are left
out.
-/

namespace MowerRover.Cli.Bringup

open Effects

/-- What a step may raise: `typer.Exit`, `SshError`, or something else. -/
inductive Raised
  | exit (code : ℕ)
  | ssh (message : String)
  | other (message : String)
  deriving DecidableEq, Repr

/-- The text of an exception that the loop notes down. A `typer.Exit` has no attribute `code`. -/
def Raised.message : Raised → Option String
  | exit _ => some "exit code ?"
  | ssh message => some message
  | other _ => none

structure BringupStep where
  name : String
  gate : Bool := false
  deriving DecidableEq, Repr

def bringupSteps : List BringupStep :=
  [{ name := "clear-host-key" }, { name := "check-ssh", gate := true }, { name := "enable-linger" },
   { name := "harden-os" }, { name := "reboot-and-wait" }, { name := "restore-binaries" },
   { name := "install-build-deps" }, { name := "build-rtabmap" }, { name := "build-depthai" },
   { name := "build-slam-node" }, { name := "build-kiosk-renderer" },
     { name := "archive-binaries" },
   { name := "pixhawk-udev" }, { name := "install-uv" }, { name := "install-cli" },
   { name := "verify" }, { name := "vslam-config" }, { name := "service" },
   { name := "vslam-db-check" }, { name := "install-mavproxy" }, { name := "vslam-services" },
   { name := "pixhawk-sync" }, { name := "kiosk-services" }, { name := "kiosk-probe" },
   { name := "final-verify" }]

def stepNames : List String := bringupSteps.map (·.name)

structure Options where
  step : Option String := none
  fromStep : Option String := none
  continueOnError : Bool := false
  parallelBuilds : Bool := false
  dryRun : Bool := false
  deriving DecidableEq, Repr

inductive BringupOp
  | check (step : String)
  /-- the builds can be given a number of jobs -/
  | execute (step : String) (jobs : Option ℕ)
  /-- of two builds that fail, whether `build-depthai` fails first -/
  | raced

abbrev bringupSignature : Signature where
  Op := BringupOp
  Ans
    | .check _ => Except Raised Bool
    | .execute _ _ => Except Raised Unit
    | .raced => Bool

abbrev BringupM := Program bringupSignature Raised

def perform (op : BringupOp) : BringupM (bringupSignature.Ans op) :=
  Program.perform (S := bringupSignature) op

/-- `s.check(client)`. -/
def check (name : String) : BringupM Bool := do
  Program.ofExcept (← perform (.check name))

/-- A step that failed, and how. -/
abbrev Failure := String × String

def executeStep (continueOnError : Bool) (s : BringupStep) : BringupM (List Failure) := do
  match ← perform (.execute s.name none) with
  | .ok () => pure []
  | .error x =>
    match x.message with
    | none => throw x
    | some message => if !continueOnError || s.gate then throw x else pure [(s.name, message)]

/-- A turn of the loop without parallel builds. -/
def ordinary (options : Options) (fromStepIdx : Option ℕ) (i : ℕ) (s : BringupStep) :
    BringupM (List Failure) := do
  if options.dryRun then pure []
  else if i < fromStepIdx.getD 0 then pure []
  else if options.step.isNone then
    if ← check s.name then pure [] else executeStep options.continueOnError s
  else executeStep options.continueOnError s

/-- What `_run_in_thread` appends to the errors; any other exception ends the thread. -/
def threadErrors (name : String) : Except Raised Unit → List Failure
  | .ok () => []
  | .error x => x.message.toList.map fun message => (name, message)

/-- A build on a thread, when it is needed. -/
def threadBuild (name : String) (needed : Bool) : BringupM (List Failure) := do
  if needed then
    let result ← perform (.execute name (some 6))
    pure (threadErrors name result)
  else pure []

/-- Both builds at once. Nothing happens when neither is needed. -/
def parallelBuilds (continueOnError : Bool) (steps : List BringupStep) :
    BringupM (Option (List Failure)) := do
  let rtabmapNeedsRun := !(← check "build-rtabmap")
  let depthaiNeedsRun ←
    if steps.any fun s => s.name = "build-depthai" then do pure (!(← check "build-depthai"))
    else pure false
  if rtabmapNeedsRun || depthaiNeedsRun then
    let rtabmapErrors ← threadBuild "build-rtabmap" rtabmapNeedsRun
    let depthaiErrors ← threadBuild "build-depthai" depthaiNeedsRun
    let errors := if ← perform .raced then depthaiErrors ++ rtabmapErrors
      else rtabmapErrors ++ depthaiErrors
    if errors ≠ [] && !continueOnError then throw (.exit 3)
    pure (some errors)
  else pure none

/-- A turn of the loop. -/
def turn (options : Options) (fromStepIdx : Option ℕ) (steps : List BringupStep) (i : ℕ)
    (s : BringupStep) : BringupM (List Failure) := do
  if options.parallelBuilds && !options.dryRun && options.step.isNone && s.name =
    "build-rtabmap" then
    match ← parallelBuilds options.continueOnError steps with
    | some errors => pure errors
    | none => ordinary options fromStepIdx i s
  else if options.parallelBuilds && !options.dryRun && options.step.isNone &&
      s.name = "build-depthai" && steps.any fun s => s.name = "build-rtabmap" then pure []
  else ordinary options fromStepIdx i s

/-- The loop over the steps from the `i`-th on, with the failures that were noted down. -/
def loop (turn : ℕ → BringupStep → BringupM (List Failure)) :
    ℕ → List BringupStep → BringupM (List Failure)
  | _, [] => pure []
  | i, s :: rest => do
    let failures ← turn i s
    pure (failures ++ (← loop turn (i + 1) rest))

def bringupCommand (options : Options) : BringupM Unit := do
  if options.step.isSome && options.fromStep.isSome then throw (.exit 2)
  if options.step.any fun name => name ∉ stepNames then throw (.exit 2)
  if options.fromStep.any fun name => name ∉ stepNames then throw (.exit 2)
  let steps := match options.step with
    | some name => bringupSteps.filter fun s => s.name = name
    | none => bringupSteps
  let fromStepIdx := options.fromStep.bind fun name => steps.findIdx? fun s => s.name = name
  let failures ← loop (turn options fromStepIdx steps) 0 steps
  if failures ≠ [] then throw (.exit 1)

inductive Event
  | checked (step : String)
  | started (step : String)
  deriving DecidableEq, Repr

def Event.step : Event → String
  | checked step | started step => step

/-- What checking and what executing each step comes to. -/
structure Behaviour where
  check : String → Except Raised Bool
  execute : String → Except Raised Unit
  depthaiFirst : Bool

namespace Behaviour

variable (b : Behaviour)

def handler : Handler bringupSignature Unit Event
  | .check step, () => (b.check step, (), [.checked step])
  | .execute step _, () => (b.execute step, (), [.started step])
  | .raced, () => (b.depthaiFirst, (), [])

def run {α : Type} (p : BringupM α) : Outcome Raised α Unit Event := p.run b.handler ()

end Behaviour

end MowerRover.Cli.Bringup
