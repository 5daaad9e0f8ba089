import MowerRover.Effects.Program
import MowerRover.Errors
import MowerRover.Text
import MowerRover.Words

/-!
# Remote commands

`JetsonClient.run` appends the remote argument vector to the options of `ssh`.
OpenSSH joins what follows the host with spaces, and the remote shell splits the
line again: nothing in between quotes an element that has a space in it.
-/

namespace MowerRover.Transport

open Effects

structure JetsonEndpoint where
  host : String
  user : String
  port : ℤ := 22
  keyPath : Option String := none
  deriving DecidableEq, Repr

/-- The accepted values of `StrictHostKeyChecking`. -/
inductive HostKeyPolicy
  | acceptNew
  | yes
  | no
  deriving DecidableEq, Repr

def HostKeyPolicy.text : HostKeyPolicy → String
  | acceptNew => "accept-new"
  | yes => "yes"
  | no => "no"

/-- A client; `ssh` is the binary that was found. -/
structure JetsonClient where
  endpoint : JetsonEndpoint
  strictHostKeys : HostKeyPolicy := .acceptNew
  connectTimeoutS : ℤ := 10
  ssh : Option String
  deriving DecidableEq, Repr

structure SshResult where
  argv : List String
  returncode : ℤ
  stdout : String
  stderr : String
  deriving DecidableEq, Repr

def SshResult.ok (result : SshResult) : Bool := result.returncode = 0

/-- How a process of `subprocess.run` can end. -/
inductive Completed
  | fileNotFound (message : String)
  | timeoutExpired
  | exited (returncode : ℤ) (stdout stderr : String)

/-- Starting a process with its argument vector. -/
abbrev processSignature : Signature where
  Op := List String
  Ans _ := Completed

namespace JetsonClient

def commonOpts (client : JetsonClient) : List String :=
  ["-o", s!"StrictHostKeyChecking={client.strictHostKeys.text}",
   "-o", s!"ConnectTimeout={client.connectTimeoutS}",
   "-o", "BatchMode=yes",
   "-o", "PasswordAuthentication=no"] ++
  match client.endpoint.keyPath with
  | some path => ["-i", path]
  | none => []

def target (client : JetsonClient) : String := s!"{client.endpoint.user}@{client.endpoint.host}"

def buildSshArgv (client : JetsonClient) (remoteArgv : List String) : Except PyError
    (List String) :=
  match client.ssh with
  | none => throw (.ssh ("`ssh` binary not found on PATH; install the OpenSSH client" ++
      " (Windows: Add Optional Feature → OpenSSH Client)."))
  | some ssh =>
    pure (ssh :: client.commonOpts ++ ["-p", toString client.endpoint.port] ++ [client.target] ++
      remoteArgv)

/-- The timeout is only shown. -/
def run (client : JetsonClient) (remoteArgv : List String) (check : Bool) (timeout : String) :
    Program processSignature PyError SshResult := do
  let argv ← Program.ofExcept (client.buildSshArgv remoteArgv)
  match ← Program.perform (S := processSignature) argv with
  | .fileNotFound message => throw (.ssh s!"ssh binary disappeared: {message}")
  | .timeoutExpired =>
    throw (.ssh (s!"ssh timed out after {timeout}s: " ++ " ".intercalate remoteArgv))
  | .exited returncode stdout stderr => do
    let result : SshResult := ⟨argv, returncode, stdout, stderr⟩
    if check && !result.ok then
      throw (.ssh
        s!"remote command failed (exit {returncode}): {String.ofList (pyStrip stderr.toList)}")
    pure result

end JetsonClient

/-- What `ssh` is given after the host; before it stand only options with a value. -/
def afterHost : List String → List String
  | option :: value :: rest =>
    if option ∈ ["-o", "-i", "-p"] then afterHost rest else value :: rest
  | _ => []

/-- A space or a tab. -/
def isBlank (c : Char) : Bool := c = ' ' || c = '\t'

/-- The argument vector that the remote shell executes for the process started here. Without a
command it is a login shell. -/
def remoteVector (argv : List String) : Option (List String) :=
  match afterHost argv.tail with
  | [] => none
  | command => some ((words isBlank (" ".intercalate command).toList).map String.ofList)

/-- Letters, digits, `/`, `.`, `-`, `_`, `=` and spaces. -/
def plainChar (c : Char) : Bool := c.isAlphanum || c ∈ ['/', '.', '-', '_', '=', ' ']

section Remote

variable {client : JetsonClient} {remoteArgv argv : List String}

theorem target_not_option (client : JetsonClient) : client.target ∉ ["-o", "-i", "-p"] := by
  have hat : '@' ∈ client.target.toList := by
    simp [JetsonClient.target, toString]
  intro h
  simp only [List.mem_cons, List.not_mem_nil, or_false] at h
  rcases h with h | h | h <;> rw [h] at hat <;> simp at hat

theorem afterHost_commonOpts (client : JetsonClient) (rest : List String) :
    afterHost (client.commonOpts ++ rest) = afterHost rest := by
  unfold JetsonClient.commonOpts
  cases client.endpoint.keyPath <;> simp [afterHost]

theorem afterHost_buildSshArgv (h : client.buildSshArgv remoteArgv = .ok argv) :
    afterHost argv.tail = remoteArgv := by
  cases hssh : client.ssh with
  | none => simp [JetsonClient.buildSshArgv, hssh] at h
  | some ssh =>
    simp only [JetsonClient.buildSshArgv, hssh, pure_eq_ok, Except.ok.injEq] at h
    subst h
    rw [List.append_assoc, List.append_assoc, List.cons_append, List.tail_cons,
      afterHost_commonOpts, List.cons_append, List.cons_append, List.nil_append, afterHost,
      if_pos (by simp), List.singleton_append]
    cases remoteArgv with
    | nil => rfl
    | cons w ws => rw [afterHost, if_neg (target_not_option client)]

theorem isBlank_of_plainChar {c : Char} (h : plainChar c = true) :
    isBlank c = true ↔ c = ' ' := by
  have htab : c ≠ '\t' := by
    rintro rfl
    revert h
    decide
  simp [isBlank, htab]

theorem isWord_iff {w : String} (hplain : ∀ c ∈ w.toList, plainChar c = true) :
    IsWord isBlank w.toList ↔ w ≠ "" ∧ ' ' ∉ w.toList := by
  apply and_congr
  · simp
  · constructor
    · intro h hspace
      exact absurd (h ' ' hspace) (by decide)
    · intro h c hc
      rw [← Bool.not_eq_true, isBlank_of_plainChar (hplain c hc)]
      rintro rfl
      exact h hc

theorem words_joined_iff (hplain : ∀ w ∈ remoteArgv, ∀ c ∈ w.toList, plainChar c = true) :
    (words isBlank (" ".intercalate remoteArgv).toList).map String.ofList = remoteArgv ↔
      ∀ w ∈ remoteArgv, w ≠ "" ∧ ' ' ∉ w.toList := by
  have hchars : remoteArgv = (remoteArgv.map String.toList).map String.ofList := by
    simp [Function.comp_def]
  have hinjective : Function.Injective String.ofList := fun _ _ => String.ofList_inj.mp
  calc (words isBlank (" ".intercalate remoteArgv).toList).map String.ofList = remoteArgv
      ↔ words isBlank ([' '].intercalate (remoteArgv.map String.toList)) =
          remoteArgv.map String.toList := by
        conv_lhs => rhs; rw [hchars]
        rw [List.map_inj_right hinjective, String.toList_intercalate]
        rfl
    _ ↔ ∀ w ∈ remoteArgv.map String.toList, IsWord isBlank w :=
        words_intercalate_eq_iff (by decide)
    _ ↔ ∀ w ∈ remoteArgv, w ≠ "" ∧ ' ' ∉ w.toList := by
        rw [List.forall_mem_map]
        exact forall₂_congr fun w hw => isWord_iff (hplain w hw)

/-- What the other end executes for a process started here is this vector. -/
def Executes (remoteArgv started : List String) : Prop :=
  ∀ executed, remoteVector started = some executed → executed = remoteArgv

theorem executes_iff (hargv : client.buildSshArgv remoteArgv = .ok argv)
    (hplain : ∀ w ∈ remoteArgv, ∀ c ∈ w.toList, plainChar c = true) :
    Executes remoteArgv argv ↔ ∀ w ∈ remoteArgv, w ≠ "" ∧ ' ' ∉ w.toList := by
  rw [← words_joined_iff hplain, Executes, remoteVector, afterHost_buildSshArgv hargv]
  cases remoteArgv with
  | nil => simp
  | cons w ws => simp

/-- One process is started. -/
theorem calls_run_iff {allowed : List String → Prop}
    (hargv : client.buildSshArgv remoteArgv = .ok argv)
    (check : Bool) (timeout : String) :
    (client.run remoteArgv check timeout).Calls allowed ↔ allowed argv := by
  rw [JetsonClient.run, hargv]
  constructor
  · rintro ⟨h, -⟩
    exact h
  · intro h
    refine ⟨h, fun completed => ?_⟩
    cases completed with
    | exited returncode stdout stderr =>
      unfold Program.bind
      dsimp only
      split_ifs <;> trivial
    | _ => trivial

end Remote

/-- The remote command is the one asked for exactly when nothing in it is empty or has a space. -/
theorem run_executes_iff (client : JetsonClient) {remoteArgv : List String}
    (hplain : ∀ w ∈ remoteArgv, ∀ c ∈ w.toList, plainChar c = true) (check : Bool)
    (timeout : String) : (client.run remoteArgv check timeout).Calls (Executes remoteArgv) ↔
      client.ssh = none ∨ ∀ w ∈ remoteArgv, w ≠ "" ∧ ' ' ∉ w.toList := by
  cases hargv : client.buildSshArgv remoteArgv with
  | error x =>
    have hssh : client.ssh = none := by
      cases hssh : client.ssh with
      | none => rfl
      | some ssh => simp [JetsonClient.buildSshArgv, hssh] at hargv
    rw [JetsonClient.run, hargv]
    exact ⟨fun _ => .inl hssh, fun _ => trivial⟩
  | ok argv =>
    have hssh : client.ssh ≠ none := by
      intro hssh
      simp [JetsonClient.buildSshArgv, hssh] at hargv
    rw [calls_run_iff hargv, executes_iff hargv hplain, or_iff_right hssh]

theorem plain_of_all {remoteArgv : List String}
    (h : (remoteArgv.all fun w => w.toList.all plainChar) = true) :
    ∀ w ∈ remoteArgv, ∀ c ∈ w.toList, plainChar c = true := by
  intro w hw c hc
  exact List.all_eq_true.mp (List.all_eq_true.mp h w hw) c hc

/-- A Jetson, and the client that talks to it. -/
def roverClient : JetsonClient where
  endpoint := { host := "10.0.0.2", user := "mower", keyPath := some "id_ed25519" }
  ssh := some "/usr/bin/ssh"

theorem run_executes_activate : (roverClient.run ["mower-jetson", "zone", "activate", "ne"] false
    "30.0").Calls (Executes ["mower-jetson", "zone", "activate", "ne"]) :=
  (run_executes_iff roverClient (plain_of_all (by decide)) false "30.0").mpr (.inr (by decide))

/-- The integrity check of a database. -/
def pragmaArgv : List String :=
  ["sqlite3", "/var/lib/rtabmap/rtabmap.db", "PRAGMA integrity_check"]

/-- Its statement arrives as two words. -/
theorem run_splits_pragma :
    (∀ w ∈ pragmaArgv, ∀ c ∈ w.toList, plainChar c = true) ∧
      ¬ (roverClient.run pragmaArgv false "60.0").Calls (Executes pragmaArgv) := by
  have hplain : ∀ w ∈ pragmaArgv, ∀ c ∈ w.toList, plainChar c = true := plain_of_all (by decide)
  refine ⟨hplain, fun h => ?_⟩
  have hexecutes := (executes_iff (show roverClient.buildSshArgv _ = _ from rfl) hplain).mp
    ((calls_run_iff rfl false "60.0").mp h)
  exact absurd (hexecutes "PRAGMA integrity_check" (by simp [pragmaArgv])).2 (by decide)

end MowerRover.Transport
