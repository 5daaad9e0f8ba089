import MowerRover.Cli.FirmwareFlash
import MowerRover.Params.Apply
import MowerRover.Params.Normal
import MowerRover.Pixhawk.Sync

/-!
# Applying a parameter file

`mower params apply` fetches what the autopilot has, compares it with the file,
asks the operator and writes the whole file, not only what differs. It is
followed here over the link it opens and against surroundings that answer as
they like: what it writes and after what, and what it has seen when it ends
well.
-/

namespace MowerRover.Cli

open Effects Numeric Mavlink Params Pixhawk

structure ApplyOptions where
  endpoint : String := "udp:127.0.0.1:14550"
  baud : ℕ := 57600
  snapshotDir : Option String := none
  yes : Bool := false
  dryRun : Bool := false

def ApplyOptions.config (options : ApplyOptions) : ConnectionConfig :=
  { endpoint := options.endpoint, baud := options.baud }

namespace ParamsApply

def message : String := "Write parameters to the autopilot (this changes flight behaviour)"

def preApplySnapshot (options : ApplyOptions) : ToolM Unit :=
  if options.snapshotDir.isSome then do raised (← ask .writeJsonSnapshot) else pure ()

/-- `_confirm_apply`; an operator who declines ends the command. -/
def confirmApply (options : ApplyOptions) : ToolM Unit :=
  tryCatch (requiresConfirmation message options.dryRun options.yes) fun
    | .confirmationAborted _ => throw (.exit 1 "")
    | exc => throw exc

variable (cm : CaseMap)

def write (desired : ParamSet) (conn : Conn) : ToolM Unit := do
  let result ← liftLink (applyParamsPacked cm conn desired true 2 3)
  if result.failures.isEmpty then pure () else throw (.exit 1 "")

/-- What follows from the comparison. -/
def offer (options : ApplyOptions) (desired : ParamSet) (conn : Conn) (beforeSubset : ParamSet) :
    ToolM Unit :=
  if (diffParams beforeSubset desired defaultTol).isEmpty then pure ()
  else do
    confirmApply options
    if options.dryRun then pure () else write cm desired conn

/-- What is done while the link is open. -/
def onLink (options : ApplyOptions) (desired : ParamSet) (conn : Conn) : ToolM Unit := do
  let before ← liftLink (fetchParams cm conn)
  preApplySnapshot options
  let beforeSubset ← raised (currentSubset cm before desired)
  offer cm options desired conn beforeSubset

end ParamsApply

/-- `mower params apply`, with the set that was loaded. -/
def applyCommand (cm : CaseMap) (options : ApplyOptions) (desired : ParamSet) : ToolM Unit :=
  openLink options.config (ParamsApply.onLink cm options desired)

/-- The call that matters. -/
def SetsParam : ToolOp → Prop
  | .link (.send _ (.paramSet _ _)) => True
  | _ => False

/-- A parameter of the file under its name, with its value. -/
def SetsDesired (cm : CaseMap) (desired : ParamSet) (conn : Conn) (op : ToolOp) : Prop :=
  ∃ name value encoded, desired.lookup name = some value ∧ encodeName cm name = .ok encoded ∧
    value.FitsSingle ∧ op = .link (.send conn (.paramSet encoded value))

namespace Milestone

def heard (conn : Conn) (c : Call toolSignature) : Prop :=
  ∃ t, c = ⟨.waitHeartbeat t, some conn⟩

def listRequested (conn : Conn) (c : Call toolSignature) : Prop :=
  c = ⟨.link (.send conn requestList), ()⟩

def snapshotWritten (c : Call toolSignature) : Prop := c = ⟨.writeJsonSnapshot, .ok ()⟩

/-- What comes before the first parameter that is written. -/
def beforeWriting (options : ApplyOptions) (conn : Conn) : List (Call toolSignature → Prop) :=
  approval options.yes ParamsApply.message ++
    ((if options.snapshotDir.isSome then [snapshotWritten] else []) ++
      [listRequested conn, heard conn])

end Milestone

open Milestone ParamsApply

/-- Nothing is written, or parameters of the file are, past the milestones. -/
def WritesFile (cm : CaseMap) (options : ApplyOptions) (desired : ParamSet)
    (past : List (Call toolSignature)) : Prop :=
  (∀ d ∈ past, ¬ SetsParam d.1) ∨ options.dryRun = false ∧ ∃ conn,
    Gated SetsParam (SetsDesired cm desired conn) (beforeWriting options conn) past

section Writes

variable {cm : CaseMap} {options : ApplyOptions} {desired : ParamSet} {conn : Conn}
  {o : Oracle toolSignature} {kinds : List (Call toolSignature → Prop)}

theorem IsConnecting.not_setsParam {op : ToolOp} (hop : IsConnecting op) : ¬ SetsParam op := by
  cases op <;> first | exact hop.elim | exact fun h => h

theorem keeps_writesFile {op : ToolOp} (hop : ¬ SetsParam op) :
    Keeps o.handler (WritesFile cm options desired) op := by
  rintro past (hnone | ⟨hdry, conn, hgated⟩)
  · refine .inl fun d hd => ?_
    obtain rfl | hd := List.mem_cons.mp hd
    · exact hop
    · exact hnone d hd
  · exact .inr ⟨hdry, conn, keeps_gated (fun h => absurd h hop) past hgated⟩

/-- A message that sets one of the parameters. -/
def SendsParam (cm : CaseMap) (conn : Conn) (params : List (String × PyFloat)) (op : LinkOp) :
    Prop :=
  ∀ target msg, op = .send target msg → target = conn ∧ ∃ p ∈ params, ∃ encoded,
    encodeName cm p.1 = .ok encoded ∧ msg = .paramSet encoded p.2

theorem SendsParam.of_silent (conn : Conn) (params : List (String × PyFloat)) (op : LinkOp)
    (hop : SendsOnly (fun _ => False) op) : SendsParam cm conn params op := by
  rintro target msg rfl
  exact hop.elim

theorem SendsParam.mono {params params' : List (String × PyFloat)} (hsub : params ⊆ params')
    (op : LinkOp) (hop : SendsParam cm conn params op) : SendsParam cm conn params' op := by
  intro target msg hmsg
  obtain ⟨htarget, p, hp, hencoded⟩ := hop target msg hmsg
  exact ⟨htarget, p, hsub hp, hencoded⟩

theorem calls_applyOne_sends (conn : Conn) {name : String} {encoded : List UInt8}
    (henc : encodeName cm name = .ok encoded) (value : PyFloat) (verify : Bool) (timeout : ℚ)
    (attempts : ℕ) (last : ApplyError) :
    (applyOne cm conn name encoded value verify timeout attempts last).Calls
      (SendsParam cm conn [(name, value)]) := by
  induction attempts generalizing last with
  | zero => trivial
  | succ attempts ih =>
    have hsend : SendsParam cm conn [(name, value)] (.send conn (.paramSet encoded value)) := by
      rintro _ _ ⟨⟩
      exact ⟨rfl, _, List.mem_cons_self, encoded, henc, rfl⟩
    unfold applyOne
    refine (Program.calls_perform hsend).bind fun _ => ?_
    split_ifs
    · trivial
    · refine ((calls_waitWithin _ timeout [.paramValue] (echoOf cm name)).mono
        (SendsParam.of_silent conn _)).bind fun echo => ?_
      cases echo with
      | none => exact ih .noEcho
      | some echo =>
        dsimp only
        split_ifs
        · trivial
        · exact ih _

theorem calls_applyEach_sends (verify : Bool) (timeout : ℚ) (maxRetries : ℕ)
    (params : List (String × PyFloat)) (result : ApplyResult) :
    (applyEach cm conn verify timeout maxRetries params result).Calls
      (SendsParam cm conn params) := by
  induction params generalizing result with
  | nil => trivial
  | cons p params ih =>
    obtain ⟨name, value⟩ := p
    unfold applyEach
    cases henc : encodeName cm name with
    | error x => trivial
    | ok encoded =>
      have hone := calls_applyOne_sends conn henc value verify timeout maxRetries .noResponse
      refine (hone.mono (SendsParam.mono (by simp))).bind fun answer => ?_
      cases answer with
      | ok success => exact (ih _).mono (SendsParam.mono (List.subset_cons_self _ _))
      | error error => exact (ih _).mono (SendsParam.mono (List.subset_cons_self _ _))

theorem calls_write :
    (applyParamsPacked cm conn desired true 2 3).Calls fun op =>
      SetsParam (.link op) → SetsDesired cm desired conn (.link op) := by
  refine (Program.Calls.guarded (calls_applyEach_sends true 2 3 desired.asSortedDict {})).mono ?_
  rintro (⟨target, msg⟩ | types | timeout) ⟨hsends, hpacks⟩ hsets
  · obtain ⟨rfl, p, hp, encoded, henc, rfl⟩ := hsends target msg rfl
    exact ⟨p.1, p.2, encoded, ParamSet.lookup_eq_some.mpr (ParamSet.mem_asSortedDict.mp hp), henc,
      (packRefusal_eq_none target encoded).mp hpacks, rfl⟩
  · exact hsets.elim
  · exact hsets.elim

theorem fetch_stage (conn : Conn) :
    Triple o.handler (Stage SetsParam kinds) (liftLink (fetchParams cm conn))
      (fun _ => Stage SetsParam (listRequested conn :: kinds))
      fun _ past => ∀ d ∈ past, ¬ SetsParam d.1 := by
  have hquiet : ∀ {op : LinkOp}, SendsOnly (fun _ => False) op → ¬ SetsParam (.link op) := by
    rintro (⟨target, msg⟩ | types | timeout) hop
    · exact hop.elim
    · exact fun h => h
    · exact fun h => h
  refine Triple.mapOps ?_
  unfold fetchParams
  refine Triple.bind (Q := fun _ => Stage SetsParam (listRequested conn :: kinds)) ?_ fun _ => ?_
  · have hsend : ¬ SetsParam (.link (.send conn requestList)) := fun h => h
    exact Triple.perform fun past hs => ⟨(hs.cons hsend).none, hs.passed.here rfl⟩
  · refine Triple.onError (E := fun _ => Stage SetsParam (listRequested conn :: kinds)) ?_
      fun _ _ hs => hs.none
    refine Preserves.of_calls (A := SendsOnly fun _ => False)
      (fun op hop past hs => hs.cons (hquiet hop)) ?_
    refine (calls_polls _ _).bind fun rounds => (calls_fetchLoop cm _ rounds 0 [] none).bind
      fun collected => Program.calls_ofExcept _

theorem preApplySnapshot_stage (options : ApplyOptions) :
    Triple o.handler (Stage SetsParam kinds) (preApplySnapshot options)
      (fun _ => Stage SetsParam
        ((if options.snapshotDir.isSome then [snapshotWritten] else []) ++ kinds))
      fun _ past => ∀ d ∈ past, ¬ SetsParam d.1 := by
  unfold preApplySnapshot
  split_ifs with hdir
  · refine Triple.bind (perform_stage fun h => h) fun answer => ?_
    cases answer with
    | ok u => exact Triple.pure fun _ hs => hs snapshotWritten rfl
    | error exc => exact Triple.throw fun _ hs => (hs (fun _ => True) trivial).none
  · exact Triple.pure fun _ hs => hs

theorem confirmApply_stage (options : ApplyOptions) (hdry : options.dryRun = false) :
    Triple o.handler (Stage SetsParam kinds) (confirmApply options)
      (fun _ => Stage SetsParam (approval options.yes message ++ kinds))
      fun _ past => ∀ d ∈ past, ¬ SetsParam d.1 := by
  refine Triple.tryCatch (E := fun _ past => ∀ d ∈ past, ¬ SetsParam d.1) ?_ fun exc => ?_
  · unfold requiresConfirmation approval
    cases hyes : options.yes with
    | true =>
      rw [hdry]
      exact Triple.pure fun _ hs => hs
    | false =>
      rw [hdry]
      refine Triple.bind (perform_stage fun h => h) fun answer => ?_
      cases answer with
      | true => exact Triple.pure fun _ hs => hs (approved message) rfl
      | false => exact Triple.throw fun _ hs => (hs (fun _ => True) trivial).none
  · split
    · exact Triple.throw fun _ hs => hs
    · exact Triple.throw fun _ hs => hs

theorem write_gated (kinds : List (Call toolSignature → Prop)) :
    Triple o.handler (Stage SetsParam kinds) (write cm desired conn)
      (fun _ => Gated SetsParam (SetsDesired cm desired conn) kinds)
      fun _ => Gated SetsParam (SetsDesired cm desired conn) kinds := by
  refine Triple.pre (P := Gated SetsParam (SetsDesired cm desired conn) kinds) ?_
    fun _ hs => hs.gated _
  have hcalls : (liftLink (applyParamsPacked cm conn desired true 2 3)).Calls
      fun op => SetsParam op → SetsDesired cm desired conn op := Program.Calls.mapOps calls_write
  refine Preserves.bind (Preserves.of_calls (fun op hop => keeps_gated hop) hcalls) fun result => ?_
  split_ifs
  · exact Preserves.pure _
  · exact Preserves.throw _

theorem confirmApply_dryRun {options : ApplyOptions} (hdry : options.dryRun = true) :
    confirmApply options = pure () := by
  unfold confirmApply requiresConfirmation
  rw [hdry]
  rfl

theorem offer_writes (options : ApplyOptions) (conn : Conn) (beforeSubset : ParamSet)
    (hkinds : approval options.yes message ++ kinds = beforeWriting options conn) :
    Triple o.handler (Stage SetsParam kinds) (offer cm options desired conn beforeSubset)
      (fun _ => WritesFile cm options desired) fun _ => WritesFile cm options desired := by
  unfold offer
  split_ifs with hempty hdry
  · exact Triple.pure fun _ hs => .inl hs.none
  · rw [confirmApply_dryRun hdry]
    exact Triple.pure fun _ hs => .inl hs.none
  · have hdry : options.dryRun = false := by simpa using hdry
    refine Triple.bind ((confirmApply_stage options hdry).onError fun _ _ hs => .inl hs)
      fun _ => ?_
    rw [hkinds]
    refine (write_gated (beforeWriting options conn)).conseq (fun _ hs => hs) ?_ ?_
    · exact fun _ _ hs => .inr ⟨hdry, conn, hs⟩
    · exact fun _ _ hs => .inr ⟨hdry, conn, hs⟩

theorem onLink_writes (options : ApplyOptions) (conn : Conn) :
    Triple o.handler (Stage SetsParam [heard conn]) (onLink cm options desired conn)
      (fun _ => WritesFile cm options desired) fun _ => WritesFile cm options desired := by
  refine Triple.bind ((fetch_stage conn).onError fun _ _ hs => .inl hs) fun before => ?_
  refine Triple.bind ((preApplySnapshot_stage options).onError fun _ _ hs => .inl hs) fun _ => ?_
  refine Triple.bind (raised_triple fun _ _ hs => .inl hs.none) fun beforeSubset => ?_
  exact offer_writes options conn beforeSubset rfl

end Writes

/-- Whatever the surroundings answer, a parameter is written only when this is not a dry run, with
a name and a value of the file, to the autopilot that was heard, and only after its list was
requested, the snapshot written if there is to be one, and the operator has agreed. -/
theorem applyCommand_gated (cm : CaseMap) (options : ApplyOptions) (desired : ParamSet)
    (o : Oracle toolSignature) :
    WritesFile cm options desired ((applyCommand cm options desired).trace o) := by
  have hkeep : ∀ op, IsConnecting op → Keeps o.handler (Stage SetsParam []) op :=
    fun op hop => keeps_stage hop.not_setsParam
  have hbody : ∀ conn, Triple o.handler (Stage SetsParam [heard conn])
      (onLink cm options desired conn) (fun _ => WritesFile cm options desired)
      fun _ => WritesFile cm options desired := onLink_writes options
  have hrun := openLink_triple options.config (by simp [ApplyOptions.config])
    (connectOnce_triple (F := fun conn => Stage SetsParam [heard conn]) _ hkeep
      fun t past conn hs hconn => ?_) hkeep (fun _ hs => hs) (fun _ hs => .inl hs.none)
    (fun op hop => keeps_writesFile hop.not_setsParam)
    (fun _ => keeps_writesFile fun h => h) hbody
  · exact Triple.state hrun Stage.start
  · have hquiet : ¬ SetsParam (.waitHeartbeat t) := fun h => h
    refine ⟨(hs.cons hquiet).none, hs.passed.here ⟨t, ?_⟩⟩
    have hanswer : o past (.waitHeartbeat t) = some conn := hconn
    rw [hanswer]

/-- What a call leaves on the link. -/
def linkEvent : Call toolSignature → List LinkEvent
  | ⟨.link (.send conn msg), _⟩ => [.sent conn msg]
  | ⟨.link (.recvMatch _), answer⟩ => (answer : Option Msg).toList.map .took
  | _ => []

/-- The messages of a run, in their order. -/
def linkEvents (past : List (Call toolSignature)) : List LinkEvent := past.reverse.flatMap linkEvent

@[simp] theorem linkEvents_cons (c : Call toolSignature) (past : List (Call toolSignature)) :
    linkEvents (c :: past) = linkEvents past ++ linkEvent c := by
  simp [linkEvents]

/-- `recv_match` gives nothing but what it was asked for. -/
def Matching (o : Oracle toolSignature) : Prop :=
  ∀ past types m, o past (.link (.recvMatch types)) = some m → m.getType ∈ types

/-- The surroundings as a program on the link sees them. -/
def linkSide (o : Oracle toolSignature) :
    Handler linkSignature (List (Call toolSignature)) LinkEvent :=
  fun op past => (o past (.link op), ⟨.link op, o past (.link op)⟩ :: past,
    linkEvent ⟨.link op, o past (.link op)⟩)

theorem isLink_linkSide {o : Oracle toolSignature} (ho : Matching o) : IsLink (linkSide o) where
  send _ _ _ := rfl
  polls _ _ := rfl
  recvMatch types past := ⟨[], by simp, rfl, fun m hm => ho past types m hm⟩

theorem run_liftLink {α : Type} (o : Oracle toolSignature) (p : LinkM α)
    (past : List (Call toolSignature)) :
    ((liftLink p).run o.handler past).result = (p.run (linkSide o) past).result ∧
      linkEvents ((liftLink p).run o.handler past).state =
        linkEvents past ++ (p.run (linkSide o) past).events := by
  have hevents := Program.run_history (h := linkSide o)
    (I := fun events later => linkEvents later = linkEvents past ++ events)
    (fun op events later _ hlater => by simp [linkSide, hlater]) p.calls_true [] past (by simp)
  have hsame : ∀ (op : LinkOp) (later : List (Call toolSignature)),
      (o.handler (.link op) later).1 = (linkSide o op (id later)).1 ∧
        id (o.handler (.link op) later).2.1 = (linkSide o op (id later)).2.1 :=
    fun _ _ => ⟨rfl, rfl⟩
  obtain ⟨hresult, hstate⟩ := Program.run_project id hsame p past
  rw [liftLink, Program.run_mapOps]
  exact ⟨hresult, (congrArg linkEvents hstate).trans hevents⟩

variable (cm : CaseMap)

/-- The autopilot has announced the parameter with a value that does not differ. -/
def SeenClose (name : String) (value : PyFloat) (events : List LinkEvent) : Prop :=
  ∃ n v, normalizeName cm n = .ok name ∧ Announced cm n v events ∧
    v.exceeds defaultTol value = false

/-- Nothing was to be written and nothing was, or the whole file was written and echoed. -/
def Settled (options : ApplyOptions) (desired : ParamSet) (past : List (Call toolSignature)) :
    Prop :=
  options.dryRun = true ∨
    ((∀ d ∈ past, ¬ SetsParam d.1) ∧ ∀ name value, desired.lookup name = some value →
      SeenClose cm name value (linkEvents past)) ∨
    ∃ conn, ∀ name value, desired.lookup name = some value →
      ∃ echo, Written cm conn name value echo (linkEvents past)

section Seen

variable {cm} {options : ApplyOptions} {desired : ParamSet} {conn : Conn}
  {o : Oracle toolSignature}

theorem presentPairs_of_normal (full : ParamSet) {names : List String}
    (h : ∀ k ∈ names, normalizeName cm k = .ok k) :
    presentPairs cm full names = .ok (tabulate names full.lookup) := by
  induction names with
  | nil => rfl
  | cons k names ih =>
    have hk := h k List.mem_cons_self
    have hrest := ih fun n hn => h n (List.mem_cons_of_mem _ hn)
    unfold presentPairs
    rw [ParamSet.contains_of_fixed full hk]
    cases hv : full.lookup k with
    | none => simpa [tabulate, hv] using hrest
    | some v =>
      rw [ParamSet.getItem_of_fixed hk hv, hrest]
      simp [tabulate, hv]

theorem currentSubset_of_normal (hcm : cm.Idempotent) (hdesired : desired.Normal cm)
    (full : ParamSet) : ∃ current, currentSubset cm full desired = .ok current ∧
      ∀ k v, current.lookup k = some v ↔ k ∈ desired.names ∧ full.lookup k = some v := by
  have hfixed : ∀ k ∈ desired.names, normalizeName cm k = .ok k := fun k hk =>
    hdesired.fixed hcm hk
  have hpairs : ∀ p ∈ tabulate desired.names full.lookup, normalizeName cm p.1 = .ok p.1 :=
    fun p hp => hfixed p.1 (mem_tabulate.mp hp).1
  refine ⟨_, bind_eq_ok.mpr ⟨_, presentPairs_of_normal full hfixed,
    ParamSet.fromPairs_of_fixed hpairs (tabulate_nodup desired.nodup)⟩, fun k v => ?_⟩
  rw [ParamSet.lookup_eq_some]
  exact mem_tabulate

/-- What a fetch has returned was announced. -/
def Fetched (cm : CaseMap) (before : ParamSet) (events : List LinkEvent) : Prop :=
  ∀ name v, before.lookup name = some v → ∃ n, normalizeName cm n = .ok name ∧
    Announced cm n v events

theorem fetch_announced (ho : Matching o) (conn : Conn) :
    Triple o.handler (fun _ => True) (liftLink (fetchParams cm conn))
      (fun before past => Fetched cm before (linkEvents past)) fun _ _ => True := by
  intro past _
  obtain ⟨hresult, hevents⟩ := run_liftLink o (fetchParams cm conn) past
  refine ⟨fun before hbefore name v hv => ?_, fun _ _ => trivial⟩
  rw [hresult] at hbefore
  obtain ⟨n, hn, ha⟩ := fetchParams_lookup (isLink_linkSide ho) hbefore hv
  rw [hevents]
  exact ⟨n, hn, ha.mono (List.subset_append_right _ _)⟩

/-- A report without a failure: every parameter was written. -/
theorem applyParamsPacked_written {σ : Type} {h : Handler linkSignature σ LinkEvent}
    (hl : IsLink h) {s : σ} {r : ApplyResult}
    (hr : ((applyParamsPacked cm conn desired true 2 3).run h s).result = .ok r)
    (hok : r.failures = []) {name : String} {value : PyFloat}
    (hvalue : desired.lookup name = some value) :
    ∃ echo, Written cm conn name value echo
      ((applyParamsPacked cm conn desired true 2 3).run h s).events := by
  obtain ⟨applied, failures, hresult, hcovers⟩ := applyEach_covers conn hl 2 3
    desired.asSortedDict {} s (sendable_of_returns hl 2 3 desired.asSortedDict {} s hr)
  obtain rfl : r = ⟨[] ++ applied, [] ++ failures⟩ := Except.ok.inj (hr.symm.trans hresult)
  obtain rfl : failures = [] := by simpa using hok
  have hnames : (applied.map Prod.fst).Perm (desired.asSortedDict.map Prod.fst) := by
    simpa using hcovers.names
  have hmem : (name, value) ∈ desired.asSortedDict :=
    ParamSet.mem_asSortedDict.mpr (ParamSet.lookup_eq_some.mp hvalue)
  obtain ⟨p, hp, rfl⟩ := List.mem_map.mp
    (hnames.mem_iff.mpr (List.mem_map_of_mem (f := Prod.fst) hmem))
  obtain ⟨value', hvalue', hw⟩ := hcovers.written p hp
  obtain rfl : value = value' := Option.some.inj (hvalue.symm.trans
    (ParamSet.lookup_eq_some.mpr (ParamSet.mem_asSortedDict.mp hvalue')))
  exact ⟨p.2, hw⟩

theorem write_settled (ho : Matching o) (conn : Conn) :
    Triple o.handler (fun _ => True) (write cm desired conn)
      (fun _ => Settled cm options desired) fun _ _ => True := by
  refine Triple.bind (Q := fun r past => r.failures = [] → ∀ name value,
    desired.lookup name = some value → ∃ echo, Written cm conn name value echo (linkEvents past))
    ?_ fun r => ?_
  · intro past _
    obtain ⟨hresult, hevents⟩ := run_liftLink o (applyParamsPacked cm conn desired true 2 3) past
    refine ⟨fun r hr hok name value hvalue => ?_, fun _ _ => trivial⟩
    rw [hresult] at hr
    obtain ⟨echo, hw⟩ := applyParamsPacked_written (isLink_linkSide ho) hr hok hvalue
    rw [hevents]
    exact ⟨echo, hw.after _⟩
  · split_ifs with hok
    · exact Triple.pure fun _ hs => .inr (.inr ⟨conn, hs (List.isEmpty_iff.mp hok)⟩)
    · exact Triple.throw fun _ _ => trivial

theorem seenClose_of_isEmpty {before current : ParamSet} {events : List LinkEvent}
    (hlookup : ∀ k v, current.lookup k = some v ↔ k ∈ desired.names ∧ before.lookup k = some v)
    (hempty : (diffParams current desired defaultTol).isEmpty = true)
    (hfetched : Fetched cm before events) {name : String} {value : PyFloat}
    (hvalue : desired.lookup name = some value) : SeenClose cm name value events := by
  obtain ⟨hnames, hclose⟩ := (diffParams_isEmpty_iff ..).mp hempty
  cases hold : current.lookup name with
  | none => simp [(hnames name).mp hold] at hvalue
  | some old =>
    obtain ⟨n, hn, ha⟩ := hfetched name old ((hlookup name old).mp hold).2
    exact ⟨n, old, hn, ha, hclose name old value hold hvalue⟩

theorem keeps_settled {op : ToolOp} (hop : ¬ SetsParam op)
    (hquiet : ∀ answer, linkEvent ⟨op, answer⟩ = []) :
    Keeps o.handler (Settled cm options desired) op := by
  rintro past (hdry | ⟨hnone, hseen⟩ | ⟨conn, hwritten⟩)
  · exact .inl hdry
  · refine .inr (.inl ⟨?_, ?_⟩)
    · intro d hd
      obtain rfl | hd := List.mem_cons.mp hd
      · exact hop
      · exact hnone d hd
    · simpa [Oracle.handler, hquiet] using hseen
  · refine .inr (.inr ⟨conn, ?_⟩)
    simpa [Oracle.handler, hquiet] using hwritten

/-- Nothing has been written, and this is what the autopilot has. -/
def Asked (cm : CaseMap) (before : ParamSet) (past : List (Call toolSignature)) : Prop :=
  (∀ d ∈ past, ¬ SetsParam d.1) ∧ Fetched cm before (linkEvents past)

theorem fetch_asked (ho : Matching o) (conn : Conn) :
    Triple o.handler (fun past => ∀ d ∈ past, ¬ SetsParam d.1) (liftLink (fetchParams cm conn))
      (fun before => Asked cm before) fun _ _ => True := by
  have hstage : Triple o.handler (Stage SetsParam []) (liftLink (fetchParams cm conn)) _ _ :=
    fetch_stage conn
  exact (hstage.and (fetch_announced ho conn)).conseq (fun _ hs => ⟨⟨hs, trivial⟩, trivial⟩)
    (fun _ _ hs => ⟨hs.1.none, hs.2⟩)
    fun _ _ _ => trivial

theorem preApplySnapshot_asked (before : ParamSet) :
    Triple o.handler (Asked cm before) (preApplySnapshot options) (fun _ => Asked cm before)
      fun _ _ => True := by
  have hkeep : Keeps o.handler (Asked cm before) .writeJsonSnapshot := by
    rintro past ⟨hnone, hfetched⟩
    have hquiet : ¬ SetsParam .writeJsonSnapshot := fun h => h
    refine ⟨fun d hd => ?_, by simpa [Oracle.handler, linkEvent] using hfetched⟩
    obtain rfl | hd := List.mem_cons.mp hd
    · exact hquiet
    · exact hnone d hd
  refine Triple.onError (E := fun _ => Asked cm before) ?_ fun _ _ _ => trivial
  unfold preApplySnapshot
  split_ifs
  · exact (ask_preserves hkeep).bind fun _ => raised_preserves _
  · exact Preserves.pure _

theorem onLink_settled (options : ApplyOptions) (hcm : cm.Idempotent)
    (hdesired : desired.Normal cm) (ho : Matching o) (conn : Conn) :
    Triple o.handler (fun past => ∀ d ∈ past, ¬ SetsParam d.1) (onLink cm options desired conn)
      (fun _ => Settled cm options desired) fun _ _ => True := by
  refine (fetch_asked ho conn).bind fun before => ?_
  refine (preApplySnapshot_asked before).bind fun _ => ?_
  obtain ⟨current, hcurrent, hlookup⟩ := currentSubset_of_normal hcm hdesired before
  rw [hcurrent, raised_ok_bind]
  unfold offer
  split_ifs with hempty hdry
  · exact Triple.pure fun past hs => .inr (.inl ⟨hs.1, fun name value hvalue =>
      seenClose_of_isEmpty hlookup hempty hs.2 hvalue⟩)
  · rw [confirmApply_dryRun hdry]
    exact Triple.pure fun _ _ => .inl hdry
  · refine Triple.bind (Q := fun _ _ => True) ?_ fun _ => write_settled ho conn
    exact fun _ _ => ⟨fun _ _ => trivial, fun _ _ => trivial⟩

end Seen

/-- A command that ends well and was no dry run: the autopilot announced every parameter of the
file as it should be and nothing was written, or every one was written and echoed. -/
theorem applyCommand_settled {cm : CaseMap} (hcm : cm.Idempotent) (options : ApplyOptions)
    {desired : ParamSet} (hdesired : desired.Normal cm) {o : Oracle toolSignature}
    (ho : Matching o)
    (hok : ((applyCommand cm options desired).run o.handler []).result = .ok ()) :
    Settled cm options desired ((applyCommand cm options desired).trace o) := by
  have hkeep : ∀ op, IsConnecting op →
      Keeps o.handler (fun past => ∀ d ∈ past, ¬ SetsParam d.1) op := by
    intro op hop past hs d hd
    obtain rfl | hd := List.mem_cons.mp hd
    · exact hop.not_setsParam
    · exact hs d hd
  have hrun := openLink_triple (E := fun _ => True) options.config
    (by simp [ApplyOptions.config])
    (connectOnce_triple _ hkeep fun t past _ hs _ => hkeep (.waitHeartbeat t) trivial past hs)
    hkeep (fun _ hs => hs) (fun _ _ => trivial) (fun _ _ _ _ => trivial)
    (fun _ => keeps_settled (fun h => h) fun _ => rfl)
    (onLink_settled options hcm hdesired ho)
  exact (hrun [] (by simp)).1 () hok

/-- An autopilot with its fence off, which takes what it is sent, and an operator who agrees. -/
def fenceOracle : Oracle toolSignature := fun past op =>
  match op with
  | .link (.recvMatch types) =>
    let value := if past.any fun c => c.1 matches .link (.send _ (.paramSet _ _)) then 1 else 0
    if .paramValue ∈ types then some (.paramValue (.text "FENCE_ENABLE") (.fin value) 1) else none
  | .link (.polls _) => (1 : ℕ)
  | .link (.send _ _) | .close | .sleep _ => ()
  | .mavlinkConnection _ | .writeZoneSnapshot .. | .validateApj _ | .fetchParams
  | .writeJsonSnapshot => .ok ()
  | .waitHeartbeat _ => some ⟨1, 1⟩
  | .prompt _ => true
  | .readYaml _ => .missing
  | .generateWaypoints _ => .ok []
  | .ssh _ _ | .waitForBootloader _ => .error (.other "")
  | .checkRemoteVersion _ | .downloadFirmware .. => none
  | .flashFirmware .. => ⟨false, none, 0⟩

def fenceOn : ParamSet := ⟨[("FENCE_ENABLE", .fin 1)], List.nodup_singleton _⟩

theorem applyCommand_settled_fence :
    ((applyCommand .asciiOnly {} fenceOn).run fenceOracle.handler []).result = .ok () ∧
      Settled .asciiOnly {} fenceOn ((applyCommand .asciiOnly {} fenceOn).trace fenceOracle) := by
  have hmatching : Matching fenceOracle := by
    intro past types m hm
    dsimp only [fenceOracle] at hm
    split_ifs at hm with htypes
    · obtain rfl := Option.some.inj hm
      exact htypes
    · obtain rfl := Option.some.inj hm
      exact htypes
  have hnormal : fenceOn.Normal .asciiOnly := by
    intro k hk
    obtain rfl := List.mem_singleton.mp hk
    exact ⟨"FENCE_ENABLE", normalizeName_of_plain _ (by decide)⟩
  obtain ⟨u, hok⟩ := exists_ok_of_isOk
    (show ((applyCommand .asciiOnly {} fenceOn).run fenceOracle.handler []).result.isOk = true by
      decide +kernel)
  exact ⟨hok, applyCommand_settled CaseMap.idempotent_asciiOnly {} hnormal hmatching hok⟩

end MowerRover.Cli
