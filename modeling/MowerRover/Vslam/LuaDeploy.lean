import MowerRover.Effects.Trace
import MowerRover.Errors
import MowerRover.Text

/-!
# Deploying the Lua script

`check_and_deploy_lua` compares the version in the script on the SD card with
that of the bundled one and uploads when they differ. The surroundings answer
each FTP request; the reads are numbered, so that no request is made twice.
Every failure ends in the log, and the caller is told nothing of it.
-/

namespace MowerRover.Vslam.LuaDeploy

open Effects

abbrev Bytes := List UInt8

def scriptName : String := "ahrs-source-gps-vslam.lua"

def remoteDir : String := "/APM/scripts"

def remotePath : String := s!"{remoteDir}/{scriptName}"

/-- `bytes.decode("utf-8", errors="replace")`, fixed on ASCII. -/
structure Utf8 where
  decode : Bytes → List Char
  decode_ascii : ∀ bytes, (∀ b ∈ bytes, b < 128) → decode bytes = bytes.map fun b =>
    Char.ofNat b.toNat

/-- The decoder that replaces every byte outside ASCII. -/
def Utf8.asciiOnly : Utf8 where
  decode := List.map fun b => if b < 128 then Char.ofNat b.toNat else Char.ofNat 0xfffd
  decode_ascii _ h := List.map_congr_left fun b hb => if_pos (h b hb)

def versionMarker : List Char := "-- VERSION:".toList

/-- What `\s*(.+)$` captures, stripped. White space may go over the end of the line;
when nothing follows it, the last of it on a line is captured. -/
def versionAfter (text : List Char) : Option String :=
  match text.dropWhile pyIsSpace with
  | [] => if text.any (· ≠ '\n') then some "" else none
  | rest => some (String.ofList (pyStrip (rest.takeWhile (· ≠ '\n'))))

/-- The first match of the expression at the beginning of a line. -/
def searchVersion : (lineStart : Bool) → List Char → Option String
  | _, [] => none
  | lineStart, c :: text =>
    let found :=
      if lineStart && versionMarker.isPrefixOf (c :: text) then
        versionAfter ((c :: text).drop versionMarker.length)
      else none
    match found with
    | some version => some version
    | none => searchVersion (c = '\n') text

def extractVersion (utf8 : Utf8) (content : Bytes) : Option String :=
  searchVersion true (utf8.decode content)

example : extractVersion .asciiOnly
    ("-- ahrs-source-gps-vslam.lua\n-- VERSION: 1.0\n-- stuff".toList.map fun c =>
      c.toNat.toUInt8) =
      some "1.0" := by decide +kernel

/-- `error_code` of a reply; a failure with the reason that is logged. -/
inductive FtpCode
  | success
  | fileExists
  | failure (reason : String)
  deriving DecidableEq, Repr

inductive FtpOp
  /-- `_FTPSession(conn)` -/
  | openSession
  | cmdMkdir (path : String)
  | cmdList (path : String)
  /-- the first or the second read of a run -/
  | read (again : Bool) (path : String)
  | cmdPut (path : String) (data : Bytes)
  | processFtpReply (operation : String) (timeout : ℕ)
  deriving DecidableEq

abbrev ftpSignature : Signature where
  Op := FtpOp
  Ans
    | .openSession => Except PyError Unit
    | .cmdMkdir _ | .cmdPut _ _ | .processFtpReply _ _ => Except PyError FtpCode
    | .cmdList _ => Except PyError (FtpCode × List String)
    | .read _ _ => Except PyError (Option Bytes)

abbrev FtpM := Program ftpSignature PyError

def ask (op : FtpOp) : FtpM (ftpSignature.Ans op) := Program.perform (S := ftpSignature) op

def failed (operation path : String) : FtpCode → PyError
  | .success => .os s!"{operation} {path}: Success"
  | .fileExists => .os s!"{operation} {path}: FileExists"
  | .failure reason => .os s!"{operation} {path}: {reason}"

/-- An exception unless the code is one of these. -/
def checkCode (operation path : String) (allowed : List FtpCode) (code : FtpCode) :
    Except PyError Unit :=
  if code ∈ allowed then pure () else throw (failed operation path code)

def openSession : FtpM Unit := do
  Program.ofExcept (← ask .openSession)

def mkdir (path : String) : FtpM Unit := do
  let ret ← ask (.cmdMkdir path)
  Program.ofExcept (ret >>= checkCode "mkdir" path [.success, .fileExists])

def listReply (path : String) (ret : Except PyError (FtpCode × List String)) :
    Except PyError (List String) := do
  let (code, listing) ← ret
  checkCode "list" path [.success] code
  pure listing

def listDirectory (path : String) : FtpM (List String) := do
  let ret ← ask (.cmdList path)
  Program.ofExcept (listReply path ret)

def readReply (path : String) (ret : Except PyError (Option Bytes)) : Except PyError Bytes := do
  match ← ret with
  | none => throw (.os s!"read {path}: FTP transfer failed")
  | some data => pure data

def readFile (again : Bool) (path : String) : FtpM Bytes := do
  let ret ← ask (.read again path)
  Program.ofExcept (readReply path ret)

def writeFile (path : String) (data : Bytes) : FtpM Unit := do
  let ret ← ask (.cmdPut path data)
  Program.ofExcept (ret >>= checkCode "write-create" path [.success])
  let ret ← ask (.processFtpReply "CreateFile" 30)
  Program.ofExcept (ret >>= checkCode "write" path [.success])

/-- `try: p  except OSError: ...`, with nothing for the exception. -/
def catchOS {α : Type} (p : FtpM α) : FtpM (Option α) :=
  tryCatch (some <$> p) fun exc => if exc.isOSError then pure none else throw exc

variable (utf8 : Utf8) (bundled : Bytes)

/-- Upload the bundled script; whether the read-back agrees is only logged. -/
def upload : FtpM Unit := do
  writeFile remotePath bundled
  let _ ← catchOS (readFile true remotePath)
  pure ()

/-- The body of the outer `try`. -/
def deploy : FtpM Unit := do
  openSession
  let _ ← catchOS (mkdir remoteDir)
  match ← catchOS (listDirectory remoteDir) with
  | none => pure ()
  | some listing =>
    if scriptName ∈ listing then
      let remote ← catchOS (readFile false remotePath)
      if remote.bind (extractVersion utf8) = extractVersion utf8 bundled then pure ()
      else upload bundled
    else upload bundled

def checkAndDeployLua : FtpM Unit := tryCatch (deploy utf8 bundled) fun _ => pure ()

/-- The content of the script that a call has brought back. -/
def observed : Call ftpSignature → Option Bytes
  | ⟨.read _ path, ret⟩ =>
    match ret with
    | .ok (some content) => if path = remotePath then some content else none
    | _ => none
  | _ => none

/-- The last content of the script that was read, in calls with the latest first. -/
def lastObserved (calls : List (Call ftpSignature)) : Option Bytes :=
  (calls.filterMap observed).head?

def isWrite : FtpOp → Bool
  | .cmdPut _ _ => true
  | _ => false

/-- In calls with the earliest first, every write is followed by a read that brings
back the bundled script. -/
def ReadBack : List (Call ftpSignature) → Prop
  | [] => True
  | c :: later => (isWrite c.1 = true → ∃ d ∈ later, observed d = some bundled) ∧ ReadBack later

/-- The script on the card was last seen with the bundled version, and what was
written has been read back. -/
def Deployed (calls : List (Call ftpSignature)) : Prop :=
  (∃ content, lastObserved calls = some content ∧
    extractVersion utf8 content = extractVersion utf8 bundled) ∧ ReadBack bundled calls.reverse

section Runs

variable (env : Answers ftpSignature)

/-- What is left of a result when an `OSError` is caught. -/
def caught {α : Type} : Except PyError α → Except PyError (Option α)
  | .ok a => .ok (some a)
  | .error exc => if exc.isOSError then .ok none else .error exc

theorem run_catchOS_handler {α σ τ : Type} (h : Handler ftpSignature σ τ) (op : FtpOp)
    (reply : ftpSignature.Ans op → Except PyError α) (s : σ) :
    (catchOS (ask op >>= fun ret => Program.ofExcept (reply ret))).run h s =
      ⟨caught (reply (h op s).1), (h op s).2.1, (h op s).2.2⟩ := by
  unfold catchOS ask
  rw [Program.run_tryCatch, Program.run_map, Program.run_bind, Program.run_perform,
    Outcome.andThen_mk_ok, Program.run_ofExcept]
  cases reply (h op s).1 with
  | ok a => simp [Outcome.orElse, Outcome.after, caught]
  | error exc =>
    cases hos : exc.isOSError <;> simp [caught, hos, Outcome.orElse, Outcome.after]

theorem run_catchOS {α : Type} (op : FtpOp) (reply : ftpSignature.Ans op → Except PyError α)
    (past : List (Call ftpSignature)) :
    (catchOS (ask op >>= fun ret => Program.ofExcept (reply ret))).run env.handler past =
      ⟨caught (reply (env op)), ⟨op, env op⟩ :: past, []⟩ :=
  run_catchOS_handler env.handler op reply past

theorem run_ask_ofExcept {α : Type} (op : FtpOp) (reply : ftpSignature.Ans op → Except PyError α)
    (past : List (Call ftpSignature)) :
    (ask op >>= fun ret => Program.ofExcept (reply ret)).run env.handler past =
      ⟨reply (env op), ⟨op, env op⟩ :: past, []⟩ := by
  unfold ask
  rw [env.run_perform_bind, Program.run_ofExcept]

theorem checkCode_eq_ok {operation path : String} {ret : Except PyError FtpCode} :
    (ret >>= checkCode operation path [.success]) = .ok () ↔ ret = .ok .success := by
  rw [bind_eq_ok]
  constructor
  · rintro ⟨code, rfl, hcode⟩
    unfold checkCode at hcode
    split_ifs at hcode with hmem
    rw [List.mem_singleton.mp hmem]
  · rintro rfl
    exact ⟨.success, rfl, by simp [checkCode]⟩

theorem listReply_eq_ok {path : String} {ret : Except PyError (FtpCode × List String)}
    {listing : List String} : listReply path ret = .ok listing ↔ ret = .ok (.success, listing) := by
  unfold listReply
  rw [bind_eq_ok]
  constructor
  · rintro ⟨⟨code, l⟩, rfl, hcode⟩
    obtain ⟨u, hcode, hl⟩ := bind_eq_ok.mp hcode
    have := checkCode_eq_ok.mp
      (show (Except.ok code >>= checkCode "list" path [.success]) = .ok () from hcode)
    simp_all
  · rintro rfl
    exact ⟨_, rfl, by simp [checkCode]⟩

theorem readReply_eq_ok {path : String} {ret : Except PyError (Option Bytes)} {content : Bytes} :
    readReply path ret = .ok content ↔ ret = .ok (some content) := by
  unfold readReply
  rw [bind_eq_ok]
  constructor
  · rintro ⟨answer, rfl, hcontent⟩
    cases answer with
    | none => simp at hcontent
    | some data => simpa using hcontent
  · rintro rfl
    exact ⟨some content, rfl, rfl⟩

theorem caught_eq_some {α : Type} {x : Except PyError α} {a : α} :
    caught x = .ok (some a) ↔ x = .ok a := by
  cases x with
  | ok b => simp [caught]
  | error exc => cases hos : exc.isOSError <;> simp [caught, hos]

/-- A refused request is an `OSError`; only an exception of the transport can be another one. -/
theorem caught_checkCode {operation path : String} {allowed : List FtpCode}
    {ret : Except PyError FtpCode} :
    (∃ a, caught (ret >>= checkCode operation path allowed) = .ok a) ↔
      ∀ exc, ret = .error exc → exc.isOSError = true := by
  cases ret with
  | error exc => cases hos : exc.isOSError <;> simp [caught, hos]
  | ok code =>
    have hos : (failed operation path code).isOSError = true := by cases code <;> rfl
    by_cases hcode : code ∈ allowed <;>
      simp [checkCode, hcode, caught, hos]

end Runs

section Lands

variable (env : Answers ftpSignature)

/-- The script on the card was read and has the bundled version. -/
def UpToDate (listing : List String) : Prop :=
  scriptName ∈ listing ∧ ∃ content, env (.read false remotePath) = .ok (some content) ∧
    extractVersion utf8 content = extractVersion utf8 bundled

/-- The script is missing, or what was read of it has another version; a script that
cannot be read has none. -/
def Outdated (listing : List String) : Prop :=
  scriptName ∈ listing → ∃ remote, caught (readReply remotePath (env (.read false remotePath))) =
    .ok remote ∧ remote.bind (extractVersion utf8) ≠ extractVersion utf8 bundled

/-- The upload goes through, and the script that is read back is the bundled one. -/
def Uploads : Prop :=
  env (.cmdPut remotePath bundled) = .ok .success ∧
    env (.processFtpReply "CreateFile" 30) = .ok .success ∧
      env (.read true remotePath) = .ok (some bundled)

/-- The card can be reached and listed, and has the bundled version or gets it. -/
structure Lands : Prop where
  session : env .openSession = .ok ()
  mkdir : ∀ exc, env (.cmdMkdir remoteDir) = .error exc → exc.isOSError = true
  card : ∃ listing, env (.cmdList remoteDir) = .ok (.success, listing) ∧
    (UpToDate utf8 bundled env listing ∨ Outdated utf8 bundled env listing ∧ Uploads bundled env)

/-- The calls of an upload: it may stop at each of them, and reads the script back
after a write that went through. -/
theorem upload_run (past : List (Call ftpSignature)) :
    ∃ r calls, (upload bundled).run env.handler past = ⟨r, calls ++ past, []⟩ ∧
      ((∀ c ∈ calls, observed c = none) ∧ ¬ Uploads bundled env ∨
        calls = [⟨.read true remotePath, env (.read true remotePath)⟩,
            ⟨.processFtpReply "CreateFile" 30, env (.processFtpReply "CreateFile" 30)⟩,
            ⟨.cmdPut remotePath bundled, env (.cmdPut remotePath bundled)⟩] ∧
          (env (.read true remotePath) = .ok (some bundled) → Uploads bundled env)) := by
  unfold upload writeFile
  rw [Program.run_bind, ask, env.run_perform_bind, Program.run_bind, Program.run_ofExcept]
  cases hput : (env (.cmdPut remotePath bundled) >>=
      checkCode "write-create" remotePath [.success]) with
  | error exc =>
    refine ⟨.error exc, [⟨.cmdPut remotePath bundled, env (.cmdPut remotePath bundled)⟩], rfl,
      .inl ⟨by simp [observed], ?_⟩⟩
    rintro ⟨hok, -, -⟩
    rw [checkCode_eq_ok.mpr hok] at hput
    simp at hput
  | ok u =>
    rw [Outcome.andThen_mk_ok, Outcome.after_nil, ask, env.run_perform_bind, Program.run_ofExcept]
    cases hreply : (env (.processFtpReply "CreateFile" 30) >>=
        checkCode "write" remotePath [.success]) with
    | error exc =>
      refine ⟨.error exc, [⟨.processFtpReply "CreateFile" 30,
        env (.processFtpReply "CreateFile" 30)⟩,
        ⟨.cmdPut remotePath bundled, env (.cmdPut remotePath bundled)⟩], rfl,
          .inl ⟨by simp [observed], ?_⟩⟩
      rintro ⟨-, hok, -⟩
      rw [checkCode_eq_ok.mpr hok] at hreply
      simp at hreply
    | ok u =>
      unfold readFile
      rw [Outcome.andThen_mk_ok, Outcome.after_nil, Program.run_bind, run_catchOS]
      refine ⟨(caught (readReply remotePath (env (.read true remotePath)))).map fun _ => (), _, ?_,
        .inr ⟨rfl, fun hread => ⟨checkCode_eq_ok.mp hput, checkCode_eq_ok.mp hreply, hread⟩⟩⟩
      cases caught (readReply remotePath (env (.read true remotePath))) <;> rfl

theorem not_deployed {calls : List (Call ftpSignature)}
    (h : ∀ content, lastObserved calls = some content →
      extractVersion utf8 content ≠ extractVersion utf8 bundled) :
    ¬ Deployed utf8 bundled calls := by
  rintro ⟨⟨content, hlast, hversion⟩, -⟩
  exact h content hlast hversion

theorem lastObserved_append {calls past : List (Call ftpSignature)}
    (h : ∀ c ∈ calls, observed c = none) : lastObserved (calls ++ past) = lastObserved past := by
  unfold lastObserved
  rw [List.filterMap_append, List.filterMap_eq_nil_iff.mpr h, List.nil_append]

theorem readBack_append {earlier later : List (Call ftpSignature)}
    (h : ∀ c ∈ earlier, isWrite c.1 = false) :
    ReadBack bundled (earlier ++ later) ↔ ReadBack bundled later := by
  induction earlier with
  | nil => rfl
  | cons c earlier ih =>
    have hc := h c List.mem_cons_self
    have hrest := ih fun d hd => h d (List.mem_cons_of_mem _ hd)
    simp [ReadBack, hc, hrest]

theorem observed_read_iff {again : Bool} {ret : Except PyError (Option Bytes)} {content : Bytes} :
    observed ⟨.read again remotePath, ret⟩ = some content ↔ ret = .ok (some content) := by
  match ret with
  | .error exc => simp [observed]
  | .ok none => simp [observed]
  | .ok (some data) => simp [observed]

theorem readBack_of_no_write {calls : List (Call ftpSignature)}
    (h : ∀ c ∈ calls, isWrite c.1 = false) : ReadBack bundled calls.reverse := by
  have hreverse : ∀ c ∈ calls.reverse, isWrite c.1 = false := fun c hc =>
    h c (List.mem_reverse.mp hc)
  rw [← List.append_nil calls.reverse, readBack_append bundled hreverse]
  trivial

theorem lastObserved_read_iff {past : List (Call ftpSignature)} (hpast : lastObserved past = none)
    {again : Bool} {ret : Except PyError (Option Bytes)} {content : Bytes} :
    lastObserved (⟨.read again remotePath, ret⟩ :: past) = some content ↔
      ret = .ok (some content) := by
  rw [← observed_read_iff, lastObserved, List.filterMap_cons]
  unfold lastObserved at hpast
  cases observed ⟨.read again remotePath, ret⟩ with
  | none => simp only [hpast, reduceCtorEq]
  | some data => simp

/-- After an upload the script is deployed exactly when it was read back. -/
theorem upload_deployed_iff {past : List (Call ftpSignature)}
    (hpast : ∀ content, lastObserved past = some content →
      extractVersion utf8 content ≠ extractVersion utf8 bundled)
    (hread : ∀ c ∈ past, isWrite c.1 = false) :
    Deployed utf8 bundled ((upload bundled).run env.handler past).state ↔ Uploads bundled env := by
  obtain ⟨r, calls, hrun, ⟨hnone, hfails⟩ | ⟨rfl, hback⟩⟩ := upload_run bundled env past
  · rw [hrun]
    refine iff_of_false (not_deployed utf8 bundled ?_) hfails
    rwa [lastObserved_append hnone]
  · rw [hrun]
    have hnowrite : ∀ c ∈ past.reverse, isWrite c.1 = false := by simpa using hread
    constructor
    · rintro ⟨-, hreadBack⟩
      rw [List.reverse_append, readBack_append bundled hnowrite] at hreadBack
      apply hback
      apply observed_read_iff.mp
      simpa [ReadBack, isWrite, observed] using hreadBack.1
    · rintro ⟨-, -, hread'⟩
      have hobserved : observed ⟨.read true remotePath, env (.read true remotePath)⟩ =
          some bundled := observed_read_iff.mpr hread'
      refine ⟨⟨bundled, by simp [lastObserved, hobserved], rfl⟩, ?_⟩
      rw [List.reverse_append, readBack_append bundled hnowrite]
      simp [ReadBack, isWrite, hobserved]

/-- What follows a look at the script. -/
theorem compared_deployed_iff {past : List (Call ftpSignature)} {remote : Option Bytes}
    (hlast : ∀ content, lastObserved past = some content ↔ remote = some content)
    (hread : ∀ c ∈ past, isWrite c.1 = false) :
    Deployed utf8 bundled
        ((if remote.bind (extractVersion utf8) = extractVersion utf8 bundled then pure ()
          else upload bundled : FtpM Unit).run env.handler past).state ↔
      (∃ content, remote = some content ∧
        extractVersion utf8 content = extractVersion utf8 bundled) ∨
      (remote.bind (extractVersion utf8) ≠ extractVersion utf8 bundled ∧ Uploads bundled env) := by
  by_cases hv : remote.bind (extractVersion utf8) = extractVersion utf8 bundled
  · rw [if_pos hv]
    constructor
    · rintro ⟨⟨content, hcontent, hversion⟩, -⟩
      exact .inl ⟨content, (hlast content).mp hcontent, hversion⟩
    · rintro (⟨content, hcontent, hversion⟩ | ⟨hother, -⟩)
      · exact ⟨⟨content, (hlast content).mpr hcontent, hversion⟩,
          readBack_of_no_write bundled hread⟩
      · exact absurd hv hother
  · have hother : ∀ content, remote = some content →
        extractVersion utf8 content ≠ extractVersion utf8 bundled := by
      rintro content rfl
      exact hv
    rw [if_neg hv, upload_deployed_iff utf8 bundled env
      (fun content hc => hother content ((hlast content).mp hc)) hread]
    constructor
    · exact fun hup => .inr ⟨hv, hup⟩
    · rintro (⟨content, hcontent, hversion⟩ | ⟨-, hup⟩)
      · exact absurd hversion (hother content hcontent)
      · exact hup

/-- What follows a listing. -/
theorem deploy_listed_iff {past : List (Call ftpSignature)} (hpast : lastObserved past = none)
    (hread : ∀ c ∈ past, isWrite c.1 = false) (listing : List String) :
    Deployed utf8 bundled
        ((if scriptName ∈ listing then do
            let remote ← catchOS (readFile false remotePath)
            if remote.bind (extractVersion utf8) = extractVersion utf8 bundled then pure ()
            else upload bundled
          else upload bundled : FtpM Unit).run env.handler past).state ↔
      UpToDate utf8 bundled env listing ∨
        Outdated utf8 bundled env listing ∧ Uploads bundled env := by
  by_cases hin : scriptName ∈ listing
  · have hcontent : ∀ content, env (.read false remotePath) = .ok (some content) ↔
        caught (readReply remotePath (env (.read false remotePath))) = .ok (some content) := by
      intro content
      rw [caught_eq_some, readReply_eq_ok]
    have hlast : ∀ content, lastObserved
        (⟨.read false remotePath, env (.read false remotePath)⟩ :: past) = some content ↔
          caught (readReply remotePath (env (.read false remotePath))) = .ok (some content) := by
      intro content
      rw [← hcontent]
      exact lastObserved_read_iff hpast
    rw [if_pos hin, readFile, Program.run_bind, run_catchOS]
    cases hr : caught (readReply remotePath (env (.read false remotePath))) with
    | error exc =>
      refine iff_of_false (not_deployed utf8 bundled ?_) ?_
      · intro content hc
        rw [Outcome.andThen_mk_error, hlast, hr] at hc
        simp at hc
      · simp [UpToDate, Outdated, hin, hcontent, hr]
    | ok remote =>
      have hremote : ∀ content, lastObserved
          (⟨.read false remotePath, env (.read false remotePath)⟩ :: past) = some content ↔
            remote = some content := by
        intro content
        rw [hlast, hr, Except.ok.injEq]
      rw [Outcome.andThen_mk_ok, Outcome.after_state, compared_deployed_iff utf8 bundled env hremote
        (List.forall_mem_cons.mpr ⟨rfl, hread⟩)]
      simp [UpToDate, Outdated, hin, hcontent, hr]
  · rw [if_neg hin, upload_deployed_iff utf8 bundled env (by simp [hpast]) hread]
    simp [UpToDate, Outdated, hin]

theorem deploy_deployed_iff :
    Deployed utf8 bundled ((deploy utf8 bundled).run env.handler []).state ↔
      Lands utf8 bundled env := by
  have hnot : ∀ {calls : List (Call ftpSignature)}, lastObserved calls = none →
      ¬ Deployed utf8 bundled calls := by
    intro calls hnone
    apply not_deployed
    intro content hc
    simp [hnone] at hc
  have hcard : ∀ listing, env (.cmdList remoteDir) = .ok (.success, listing) ↔
      caught (listReply remoteDir (env (.cmdList remoteDir))) = .ok (some listing) := by
    intro listing
    rw [caught_eq_some, listReply_eq_ok]
  unfold deploy openSession mkdir listDirectory
  rw [Program.run_bind, run_ask_ofExcept]
  cases hopen : env .openSession with
  | error exc =>
    refine iff_of_false (hnot rfl) fun h => ?_
    simp [h.session] at hopen
  | ok u =>
    rw [Outcome.andThen_mk_ok, Outcome.after_nil, Program.run_bind, run_catchOS]
    cases hmkdir : caught (env (.cmdMkdir remoteDir) >>=
        checkCode "mkdir" remoteDir [.success, .fileExists]) with
    | error exc =>
      refine iff_of_false (hnot rfl) fun h => ?_
      obtain ⟨a, ha⟩ : ∃ a, caught (env (.cmdMkdir remoteDir) >>=
          checkCode "mkdir" remoteDir [.success, .fileExists]) = .ok a :=
        caught_checkCode.mpr h.mkdir
      simp [ha] at hmkdir
    | ok made =>
      rw [Outcome.andThen_mk_ok, Outcome.after_nil, Program.run_bind, run_catchOS]
      cases hlist : caught (listReply remoteDir (env (.cmdList remoteDir))) with
      | error exc =>
        refine iff_of_false (hnot rfl) fun h => ?_
        obtain ⟨listing, hlisting, -⟩ := h.card
        simp [(hcard listing).mp hlisting] at hlist
      | ok found =>
        cases found with
        | none =>
          refine iff_of_false (hnot rfl) fun h => ?_
          obtain ⟨listing, hlisting, -⟩ := h.card
          simp [(hcard listing).mp hlisting] at hlist
        | some listing =>
          rw [Outcome.andThen_mk_ok, Outcome.after_nil]
          rw [deploy_listed_iff utf8 bundled env rfl (by simp [isWrite]) listing]
          constructor
          · intro h
            exact ⟨hopen, caught_checkCode.mp ⟨made, hmkdir⟩, listing, (hcard listing).mpr hlist, h⟩
          · rintro ⟨-, -, listing', hlisting', h⟩
            obtain rfl : listing' = listing := by simpa [(hcard listing').mp hlisting'] using hlist
            exact h

end Lands

section Writes

variable {utf8 bundled} {σ τ : Type} {h : Handler ftpSignature σ τ} {I W : σ → Prop}

theorem catchOS_triple {α : Type} {op : FtpOp} {reply : ftpSignature.Ans op → Except PyError α}
    {P : σ → Prop} {Q : Option α → σ → Prop} {E : σ → Prop}
    (hQ : ∀ s a, P s → caught (reply (h op s).1) = .ok a → Q a (h op s).2.1)
    (hE : ∀ s, P s → E (h op s).2.1) :
    Triple h P (catchOS (ask op >>= fun ret => Program.ofExcept (reply ret))) Q fun _ => E := by
  intro s hs
  rw [run_catchOS_handler]
  exact ⟨fun a ha => hQ s a hs ha, fun _ _ => hE s hs⟩

theorem ask_ofExcept_preserves {α : Type} {op : FtpOp}
    {reply : ftpSignature.Ans op → Except PyError α} (hop : Keeps h I op) :
    Preserves h I (ask op >>= fun ret => Program.ofExcept (reply ret)) :=
  (Preserves.perform hop).bind fun _ => Preserves.ofExcept _

/-- Requests that leave the files on the card alone. -/
def Harmless : FtpOp → Prop
  | .cmdMkdir path => path = remoteDir
  | .cmdPut _ _ => False
  | _ => True

theorem upload_triple (hI : ∀ op, Harmless op → Keeps h I op)
    (hW : ∀ s, W s → I (h (.cmdPut remotePath bundled) s).2.1) :
    Triple h W (upload bundled) (fun _ => I) fun _ => I := by
  have hput : Triple h W (ask (.cmdPut remotePath bundled)) (fun _ => I) fun _ => I :=
    Triple.perform hW
  have hwrite : Triple h W (writeFile remotePath bundled) (fun _ => I) fun _ => I := by
    apply hput.bind
    intro ret
    apply (Preserves.ofExcept _).bind
    intro _
    exact ask_ofExcept_preserves (hI (.processFtpReply _ _) trivial)
  have hback : Preserves h I (catchOS (readFile true remotePath)) := by
    apply catchOS_triple
    · intro s a hs _
      exact hI (.read true remotePath) trivial s hs
    · exact hI (.read true remotePath) trivial
  apply hwrite.bind
  intro _
  exact hback.bind fun _ => Preserves.pure _

/-- An upload is made only after a listing without the script, or after a listing and a
read that did not show the bundled version. -/
theorem deploy_preserves {L : List String → σ → Prop} (hI : ∀ op, Harmless op → Keeps h I op)
    (hW : ∀ s, W s → I (h (.cmdPut remotePath bundled) s).2.1)
    (hlisted : ∀ s listing, I s → (h (.cmdList remoteDir) s).1 = .ok (.success, listing) →
      L listing (h (.cmdList remoteDir) s).2.1)
    (hL : ∀ listing s, L listing s → I s)
    (hmissing : ∀ listing s, scriptName ∉ listing → L listing s → W s)
    (hother : ∀ listing s remote, L listing s →
      caught (readReply remotePath (h (.read false remotePath) s).1) = .ok remote →
        remote.bind (extractVersion utf8) ≠ extractVersion utf8 bundled →
          W (h (.read false remotePath) s).2.1) :
    Preserves h I (deploy utf8 bundled) := by
  have hopen : Preserves h I openSession := ask_ofExcept_preserves (hI .openSession trivial)
  have hmkdir : Preserves h I (catchOS (mkdir remoteDir)) := by
    apply catchOS_triple
    · intro s a hs _
      exact hI (.cmdMkdir remoteDir) rfl s hs
    · exact hI (.cmdMkdir remoteDir) rfl
  have hlist : Triple h I (catchOS (listDirectory remoteDir))
      (fun found s => I s ∧ ∀ listing, found = some listing → L listing s) fun _ => I := by
    apply catchOS_triple
    · intro s found hs hfound
      refine ⟨hI (.cmdList remoteDir) trivial s hs, ?_⟩
      rintro listing rfl
      exact hlisted s listing hs (listReply_eq_ok.mp (caught_eq_some.mp hfound))
    · exact hI (.cmdList remoteDir) trivial
  apply hopen.bind
  intro _
  apply hmkdir.bind
  intro _
  apply hlist.bind
  intro found
  cases found with
  | none => exact Triple.pure fun s hs => hs.1
  | some listing =>
    dsimp only
    split_ifs with hin
    · have hread : Triple h (L listing) (catchOS (readFile false remotePath))
          (fun remote s => I s ∧ (remote.bind (extractVersion utf8) ≠ extractVersion utf8 bundled →
            W s)) fun _ => I := by
        apply catchOS_triple
        · intro s remote hs hremote
          exact ⟨hI (.read false remotePath) trivial s (hL listing s hs),
            hother listing s remote hs hremote⟩
        · intro s hs
          exact hI (.read false remotePath) trivial s (hL listing s hs)
      refine Triple.pre (hread.bind fun remote => ?_) fun s hs => hs.2 listing rfl
      split_ifs with hv
      · exact Triple.pure fun s hs => hs.1
      · exact (upload_triple hI hW).pre fun s hs => hs.2 hv
    · exact (upload_triple hI hW).pre fun s hs => hmissing listing s hin (hs.2 listing rfl)

end Writes

end MowerRover.Vslam.LuaDeploy
