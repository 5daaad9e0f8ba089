import MowerRover.Pixhawk.Sync
import MowerRover.Vslam.LuaDeploy

/-!
# The full sync

`sync_lua` derives its success from the absence of an exception, and
`check_and_deploy_lua` lets none through. `sync_pixhawk` runs both parts, the
second one in a dry run as well.
-/

namespace MowerRover.Pixhawk

open Effects Mavlink Params Vslam.LuaDeploy

variable (cm : CaseMap) (utf8 : Utf8) (bundled : Bytes)

def syncLua : FtpM SyncResult :=
  tryCatch (do
    checkAndDeployLua utf8 bundled
    pure { luaDeployed := true }) fun exc => pure { errors := [.luaDeploy exc] }

/-- The calls of both parts. -/
inductive SyncOp
  | link (op : LinkOp)
  | ftp (op : FtpOp)

abbrev syncSignature : Signature where
  Op := SyncOp
  Ans
    | .link op => linkSignature.Ans op
    | .ftp op => ftpSignature.Ans op

abbrev SyncM := Program syncSignature PyError

def onLink {α : Type} (p : LinkM α) : SyncM α := p.mapOps (T := syncSignature) .link fun _ r => r

def onFtp {α : Type} (p : FtpM α) : SyncM α := p.mapOps (T := syncSignature) .ftp fun _ r => r

def syncPixhawk (conn : Conn) (profiles : List String) (dryRun : Bool) : SyncM SyncResult := do
  let paramResult ← onLink (syncParams cm conn profiles dryRun)
  let luaResult ← onFtp (syncLua utf8 bundled)
  pure {
    paramsChecked := paramResult.paramsChecked
    paramsApplied := paramResult.paramsApplied
    paramsAlreadyCurrent := paramResult.paramsAlreadyCurrent
    luaDeployed := luaResult.luaDeployed
    profilesApplied := paramResult.profilesApplied
    errors := paramResult.errors ++ luaResult.errors }

section Lua

variable {utf8 bundled} {σ τ : Type}

theorem syncLua_run (h : Handler ftpSignature σ τ) (s : σ) :
    (syncLua utf8 bundled).run h s =
      ⟨.ok { luaDeployed := true }, ((deploy utf8 bundled).run h s).state,
        ((deploy utf8 bundled).run h s).events⟩ := by
  unfold syncLua checkAndDeployLua
  rw [Program.run_tryCatch, Program.run_bind, Program.run_tryCatch]
  cases hr : ((deploy utf8 bundled).run h s).result with
  | ok u =>
    rw [Outcome.orElse_ok hr, Outcome.andThen_ok hr]
    simp [Outcome.orElse, Outcome.after]
  | error exc =>
    rw [Outcome.orElse_error hr]
    simp [Outcome.orElse, Outcome.andThen, Outcome.after]

end Lua

/-- A sync that reports the script as deployed, without an error, has deployed it exactly
when the card could be listed and had the bundled version, or the upload was read back. -/
theorem syncLua_deployed_iff (env : Answers ftpSignature) :
    (∀ r, ((syncLua utf8 bundled).run env.handler []).result = .ok r →
        r.luaDeployed = true → r.errors = [] →
          Deployed utf8 bundled ((syncLua utf8 bundled).run env.handler []).state) ↔
      Lands utf8 bundled env := by
  rw [← deploy_deployed_iff, syncLua_run]
  constructor
  · intro h
    exact h _ rfl rfl rfl
  · intro h r _ _ _
    exact h

/-- A script that is nothing but its version. -/
def versionLine : Bytes := "-- VERSION: 1.0".toList.map fun c => c.toNat.toUInt8

/-- An autopilot without an SD card: every request is answered with a failure. -/
def noCard : Answers ftpSignature
  | .openSession => .ok ()
  | .cmdMkdir _ | .cmdPut _ _ | .processFtpReply _ _ => .ok (.failure "Fail")
  | .cmdList _ => .ok (.failure "Fail", [])
  | .read _ _ => .ok none

/-- The card cannot even be listed, and the script is reported as deployed. -/
theorem syncLua_no_card :
    let o := (syncLua .asciiOnly versionLine).run noCard.handler []
    (∃ r, o.result = .ok r ∧ r.luaDeployed = true ∧ r.errors = []) ∧
      lastObserved o.state = none ∧ ¬ Deployed .asciiOnly versionLine o.state := by
  have hlast : lastObserved ((syncLua .asciiOnly versionLine).run noCard.handler []).state =
    none := rfl
  refine ⟨⟨_, rfl, rfl, rfl⟩, hlast, ?_⟩
  rintro ⟨⟨content, hcontent, -⟩, -⟩
  rw [hlast] at hcontent
  simp at hcontent

/-- What a dry run may call: it sends no parameter, creates no other directory than that
of the scripts, and uploads nothing but the bundled script, after a listing without it
or a read that did not show the bundled version. -/
def Permitted (past : List (Call syncSignature)) : SyncOp → Prop
  | .link (.send _ (.paramSet _ _)) => False
  | .link _ => True
  | .ftp (.cmdMkdir path) => path = remoteDir
  | .ftp (.cmdPut path data) => path = remotePath ∧ data = bundled ∧ ∃ listing,
      ⟨.ftp (.cmdList remoteDir), .ok (.success, listing)⟩ ∈ past ∧ (scriptName ∉ listing ∨
        ∃ ret remote, ⟨.ftp (.read false remotePath), ret⟩ ∈ past ∧
          caught (readReply remotePath ret) = .ok remote ∧
            remote.bind (extractVersion utf8) ≠ extractVersion utf8 bundled)
  | .ftp _ => True

theorem calls_syncParams_dryRun (conn : Conn) (profiles : List String) :
    (syncParams cm conn profiles true).Calls (SendsOnly (· = requestList)) := by
  apply (Program.calls_ofExcept _).bind
  rintro ⟨desired, errors⟩
  dsimp only
  split_ifs
  · trivial
  apply (calls_fetchParams cm conn).attempt.bind
  intro fetched
  cases fetched with
  | error exc => trivial
  | ok currentFull =>
    apply (Program.calls_ofExcept _).bind
    intro current
    dsimp only
    split_ifs <;> trivial

section DryRun

variable (o : Oracle syncSignature)

/-- The surroundings as the FTP part sees them. -/
def ftpHandler : Handler ftpSignature (List (Call syncSignature)) Empty :=
  fun op past => o.handler (.ftp op) past

def linkHandler : Handler linkSignature (List (Call syncSignature)) Empty :=
  fun op past => o.handler (.link op) past

variable {o} {utf8 bundled}

theorem syncParams_dryRun_lawful (conn : Conn) (profiles : List String) :
    Preserves (linkHandler o) (Lawful (Permitted utf8 bundled))
      (syncParams cm conn profiles true) := by
  apply Preserves.of_calls _ (calls_syncParams_dryRun cm conn profiles)
  intro op hop past hs
  refine ⟨?_, hs⟩
  cases op with
  | send c m =>
    obtain rfl : m = requestList := hop
    trivial
  | recvMatch types => trivial
  | polls timeout => trivial

theorem deploy_lawful :
    Preserves (ftpHandler o) (Lawful (Permitted utf8 bundled)) (deploy utf8 bundled) := by
  apply deploy_preserves (L := fun listing past => Lawful (Permitted utf8 bundled) past ∧
      ⟨.ftp (.cmdList remoteDir), .ok (.success, listing)⟩ ∈ past)
    (W := fun past => Lawful (Permitted utf8 bundled) past ∧
      Permitted utf8 bundled past (.ftp (.cmdPut remotePath bundled)))
  · intro op hop past hs
    refine ⟨?_, hs⟩
    cases op with
    | cmdMkdir path => exact hop
    | cmdPut path data => exact hop.elim
    | openSession | cmdList _ | read _ _ | processFtpReply _ _ => trivial
  · intro past hs
    exact ⟨hs.2, hs.1⟩
  · intro past listing hs hlisting
    exact ⟨⟨trivial, hs⟩, hlisting ▸ List.mem_cons_self⟩
  · intro listing past hs
    exact hs.1
  · intro listing past hin hs
    exact ⟨hs.1, rfl, rfl, listing, hs.2, .inl hin⟩
  · intro listing past remote hs hremote hversion
    exact ⟨⟨trivial, hs.1⟩, rfl, rfl, listing, List.mem_cons_of_mem _ hs.2,
      .inr ⟨_, remote, List.mem_cons_self, hremote, hversion⟩⟩

end DryRun

theorem syncLua_returns (o : Oracle syncSignature) (past : List (Call syncSignature)) :
    ∃ r, ((onFtp (syncLua utf8 bundled)).run o.handler past).result = .ok r := by
  have hrun : (onFtp (syncLua utf8 bundled)).run o.handler past =
      (syncLua utf8 bundled).run (ftpHandler o) past := Program.run_mapOps _ _ _ _ _
  rw [hrun, syncLua_run]
  exact ⟨_, rfl⟩

/-- After the parameters comes the script, whether or not the run is a dry one. -/
theorem syncPixhawk_trace (conn : Conn) (profiles : List String) (dryRun : Bool)
    (o : Oracle syncSignature) :
    (syncPixhawk cm utf8 bundled conn profiles dryRun).trace o =
      ((onFtp (syncLua utf8 bundled)).run o.handler
        ((onLink (syncParams cm conn profiles dryRun)).trace o)).state := by
  obtain ⟨r, hr⟩ : ∃ r, ((onLink (syncParams cm conn profiles dryRun)).run o.handler []).result =
      .ok r := by
    have hparams : (onLink (syncParams cm conn profiles dryRun)).run o.handler [] =
        (syncParams cm conn profiles dryRun).run (linkHandler o) [] := Program.run_mapOps _ _ _ _ _
    rw [hparams]
    exact syncParams_returns _ _ _ dryRun
  obtain ⟨q, hq⟩ := syncLua_returns utf8 bundled o
    ((onLink (syncParams cm conn profiles dryRun)).run o.handler []).state
  unfold Program.trace syncPixhawk
  rw [Program.run_bind, Outcome.andThen_ok hr, Outcome.after_state, Program.run_bind,
    Outcome.andThen_ok hq]
  rfl

/-- A dry run sends no parameter. Its FTP requests are those of the deployment, which runs as in
any other sync: the directory of the scripts, and the bundled script where it is missing, cannot be
read or has another version. -/
theorem syncPixhawk_dryRun (conn : Conn) (profiles : List String) (o : Oracle syncSignature) :
    Lawful (Permitted utf8 bundled)
        ((syncPixhawk cm utf8 bundled conn profiles true).trace o) ∧
      ∀ dryRun, (syncPixhawk cm utf8 bundled conn profiles dryRun).trace o =
        ((onFtp (syncLua utf8 bundled)).run o.handler
          ((onLink (syncParams cm conn profiles dryRun)).trace o)).state := by
  refine ⟨?_, fun dryRun => syncPixhawk_trace cm utf8 bundled conn profiles dryRun o⟩
  have hlua : Preserves (ftpHandler o) (Lawful (Permitted utf8 bundled))
    (syncLua utf8 bundled) := by
    apply Preserves.tryCatch
    · apply Preserves.bind
      · exact deploy_lawful.tryCatch fun _ => Preserves.pure _
      · exact fun _ => Preserves.pure _
    · exact fun _ => Preserves.pure _
  have hsync : Preserves o.handler (Lawful (Permitted utf8 bundled))
      (syncPixhawk cm utf8 bundled conn profiles true) := by
    apply Preserves.bind
    · exact Triple.mapOps (syncParams_dryRun_lawful cm conn profiles)
    · intro paramResult
      apply Preserves.bind
      · exact Triple.mapOps hlua
      · exact fun _ => Preserves.pure _
  exact hsync.state trivial

/-- An autopilot that sends no parameter, and has a card without the script. -/
def emptyCard : Oracle syncSignature := fun _ op =>
  match op with
  | .link (.send _ _) => ()
  | .link (.recvMatch _) => none
  | .link (.polls _) => 0
  | .ftp .openSession => .ok ()
  | .ftp (.cmdMkdir _) | .ftp (.cmdPut _ _) | .ftp (.processFtpReply _ _) => .ok .success
  | .ftp (.cmdList _) => .ok (.success, [])
  | .ftp (.read _ _) => .ok (some versionLine)

/-- A dry run that creates the directory and uploads the script. -/
theorem syncPixhawk_dryRun_writes :
    let calls := ((syncPixhawk .asciiOnly .asciiOnly versionLine ⟨1, 1⟩ defaultSyncProfiles
      true).trace emptyCard).map Sigma.fst
    .ftp (.cmdMkdir remoteDir) ∈ calls ∧ .ftp (.cmdPut remotePath versionLine) ∈ calls := by
  intro calls
  have hlua : ∀ past, ((onFtp (syncLua .asciiOnly versionLine)).run emptyCard.handler past).state =
      [⟨.ftp (.read true remotePath), .ok (some versionLine)⟩,
        ⟨.ftp (.processFtpReply "CreateFile" 30), .ok .success⟩,
        ⟨.ftp (.cmdPut remotePath versionLine), .ok .success⟩,
        ⟨.ftp (.cmdList remoteDir), .ok (.success, [])⟩,
        ⟨.ftp (.cmdMkdir remoteDir), .ok .success⟩, ⟨.ftp .openSession, .ok ()⟩] ++ past :=
    fun past => rfl
  simp [calls, syncPixhawk_trace, hlua]

end MowerRover.Pixhawk
