import MowerRover.Effects.Guard
import MowerRover.Numeric.Limits
import MowerRover.Params.ParamFile

/-!
# What an application reports

Between `apply_params` and the link stands pymavlink, which packs the value of
a `PARAM_SET` as a single and raises when it does not fit. Encoding the name
may raise as well. Either exception leaves the loop in the middle, and what was
applied before is not reported.
-/

namespace MowerRover.Params

open Effects Numeric Mavlink

/-- The exception of `param_set_send`. -/
def packRefusal : LinkOp → Option PyError
  | .send _ (.paramSet _ value) =>
    match StructField.packFloat value.toSigned with
    | .ok _ => none
    | .error x => some x
  | _ => none

variable (cm : CaseMap)

def applyParamsPacked (conn : Conn) (params : ParamSet) (verify : Bool) (timeout : ℚ)
    (maxRetries : ℕ) : LinkM ApplyResult :=
  (applyParams cm conn params verify timeout maxRetries).guarded packRefusal

/-- How often a parameter was sent. -/
def timesSent (name : String) (events : List LinkEvent) : ℕ :=
  (sentMsgs events).countP fun
    | .paramSet encoded _ => (encodeName cm name).toOption = some encoded
    | _ => false

/-- A run that ends with a report in which every name stands once, under what was applied or under
what failed. -/
structure ReportedAs {σ : Type} (params : ParamSet) (maxRetries : ℕ)
    (o : Outcome PyError ApplyResult σ LinkEvent) (r : ApplyResult) : Prop where
  returns : o.result = .ok r
  names : (r.applied.map Prod.fst ++ r.failures.map Prod.fst).Perm params.names
  applied : ∀ p ∈ r.applied, ∃ value, (p.1, value) ∈ params.values ∧
    (∃ m, .took m ∈ o.events ∧ echoOf cm p.1 m = some p.2) ∧ p.2.within verifyTol value = true
  failed : ∀ f ∈ r.failures, timesSent cm f.1 o.events ≤ maxRetries

/-- Every name can be encoded, and every value that is sent at all can be packed. -/
def Sendable (params : ParamSet) (maxRetries : ℕ) : Prop :=
  ∀ p ∈ params.values, (∃ encoded, encodeName cm p.1 = .ok encoded) ∧
    (maxRetries ≠ 0 → p.2.FitsSingle)

theorem packRefusal_eq_none (conn : Conn) (encoded : List UInt8) {value : PyFloat} :
    packRefusal (.send conn (.paramSet encoded value)) = none ↔ value.FitsSingle := by
  rw [← packFloat_toSigned, packRefusal]
  cases StructField.packFloat value.toSigned <;> simp

section Calls

variable {cm} {conn : Conn} {name : String} {encoded : List UInt8} {value : PyFloat}

/-- The retries of a parameter send nothing but that parameter. -/
theorem calls_applyOne (cm : CaseMap) (conn : Conn) (name : String) (encoded : List UInt8)
    (value : PyFloat)
    (verify : Bool) (timeout : ℚ) (attempts : ℕ) (last : ApplyError) :
    (applyOne cm conn name encoded value verify timeout attempts last).Calls
      (SendsOnly (· = .paramSet encoded value)) := by
  induction attempts generalizing last with
  | zero => trivial
  | succ attempts ih =>
    unfold applyOne
    have hsend : (send conn (.paramSet encoded value)).Calls
        (SendsOnly (· = .paramSet encoded value)) := calls_send rfl
    apply hsend.bind
    intro _
    split_ifs
    · trivial
    · apply (calls_waitWithin _ timeout [.paramValue] (echoOf cm name)).bind
      intro echo
      cases echo with
      | none => exact ih .noEcho
      | some echo =>
        dsimp only
        split_ifs
        · trivial
        · exact ih _

theorem guarded_applyOne (hfits : value.FitsSingle) (verify : Bool) (timeout : ℚ) (attempts : ℕ)
    (last : ApplyError) :
    (applyOne cm conn name encoded value verify timeout attempts last).guarded packRefusal =
      applyOne cm conn name encoded value verify timeout attempts last := by
  refine Program.guarded_of_calls ?_
  refine (calls_applyOne cm conn name encoded value verify timeout attempts last).mono ?_
  intro op hop
  cases op with
  | send target msg =>
    obtain rfl : msg = .paramSet encoded value := hop
    exact (packRefusal_eq_none target encoded).mpr hfits
  | recvMatch types => rfl
  | polls timeout => rfl

theorem guarded_applyOne_zero (verify : Bool) (timeout : ℚ) (last : ApplyError) :
    (applyOne cm conn name encoded value verify timeout 0 last).guarded packRefusal =
      applyOne cm conn name encoded value verify timeout 0 last := rfl

theorem run_guarded_applyOne_error (cm : CaseMap) (conn : Conn) (name : String)
    (encoded : List UInt8) {σ : Type} (h : Handler linkSignature σ LinkEvent)
    (hfits : ¬value.FitsSingle) (verify : Bool) (timeout : ℚ) (attempts : ℕ) (last : ApplyError)
    (s : σ) : ∃ x,
      (((applyOne cm conn name encoded value verify timeout (attempts + 1) last).guarded
        packRefusal).run h s).result = .error x := by
  obtain ⟨x, hx⟩ := Option.ne_none_iff_exists'.mp
    (mt (packRefusal_eq_none conn encoded).mp hfits)
  refine ⟨x, ?_⟩
  rw [applyOne, send, Program.run_guarded_perform hx]

theorem applyEach_guarded_cons (verify : Bool) (timeout : ℚ) (maxRetries : ℕ)
    (rest : List (String × PyFloat)) (result : ApplyResult)
    (henc : encodeName cm name = .ok encoded) :
    (applyEach cm conn verify timeout maxRetries ((name, value) :: rest) result).guarded
        packRefusal =
      (applyOne cm conn name encoded value verify timeout maxRetries .noResponse).guarded
        packRefusal >>= fun
        | .ok success => (applyEach cm conn verify timeout maxRetries rest
            { result with applied := result.applied ++ [(name, success)] }).guarded packRefusal
        | .error error => (applyEach cm conn verify timeout maxRetries rest
            { result with failures := result.failures ++ [(name, value, error)] }).guarded
              packRefusal := by
  rw [applyEach, henc]
  dsimp only
  rw [Program.guarded_bind]
  congr 1
  funext o
  cases o <;> rfl

end Calls

/-- The messages that set the parameter of this encoded name. -/
def sentCount (encoded : List UInt8) (events : List LinkEvent) : ℕ :=
  (sentMsgs events).countP fun
    | .paramSet e _ => e = encoded
    | _ => false

theorem sentCount_append (encoded : List UInt8) (a b : List LinkEvent) :
    sentCount encoded (a ++ b) = sentCount encoded a + sentCount encoded b := by
  simp [sentCount]

theorem timesSent_eq {name : String} {encoded : List UInt8}
    (henc : encodeName cm name = .ok encoded) (events : List LinkEvent) :
    timesSent cm name events = sentCount encoded events := by
  rw [timesSent, sentCount]
  congr 1
  funext m
  cases m <;> simp [henc, Except.toOption, eq_comm]

section Run

variable {cm} {conn : Conn} {name : String} {encoded : List UInt8} {value : PyFloat}
  {σ : Type} {h : Handler linkSignature σ LinkEvent}

theorem applyOne_sent_length (cm : CaseMap) (hl : IsLink h) (conn : Conn) (name : String)
    (encoded : List UInt8) (value : PyFloat) (timeout : ℚ) (attempts : ℕ) (last : ApplyError)
    (s : σ) :
    (sentMsgs ((applyOne cm conn name encoded value true timeout attempts last).run h
      s).events).length
      ≤ attempts := by
  induction attempts generalizing last s with
  | zero => exact Nat.le_refl 0
  | succ attempts ih =>
    obtain ⟨res, hres, hwait⟩ := waitWithin_waited hl timeout [.paramValue] (echoOf cm name)
      (h (.send conn (.paramSet encoded value)) s).2.1
    have hsilent := hwait.nothingSent
    unfold applyOne awaitParamEcho
    simp only [Program.run_bind, run_send hl, Outcome.andThen_mk_ok, Bool.not_true,
      Bool.false_eq_true, if_false, Outcome.after_events, Outcome.andThen_ok hres,
      sentMsgs_append, hsilent, List.nil_append, sentMsgs_cons_sent, sentMsgs_nil,
      List.length_append, List.length_singleton]
    cases res with
    | none =>
      dsimp only
      have := ih .noEcho ((waitWithin timeout [.paramValue] (echoOf cm name)).run h
        (h (.send conn (.paramSet encoded value)) s).2.1).state
      omega
    | some echo =>
      dsimp only
      split_ifs
      · simp
      · have := ih (.mismatch echo value) ((waitWithin timeout [.paramValue] (echoOf cm name)).run h
          (h (.send conn (.paramSet encoded value)) s).2.1).state
        omega

theorem sentCount_applyOne (cm : CaseMap) (hl : IsLink h) (conn : Conn) (name : String)
    (encoded : List UInt8) (value : PyFloat) (timeout : ℚ) (attempts : ℕ) (last : ApplyError)
    (s : σ) (e : List UInt8) :
    sentCount e ((applyOne cm conn name encoded value true timeout attempts last).run h s).events ≤
      if encoded = e then attempts else 0 := by
  have hkind := sentMsgs_of_calls hl
    (calls_applyOne cm conn name encoded value true timeout attempts last) s
  have hlength := applyOne_sent_length cm hl conn name encoded value timeout attempts last s
  split_ifs with he
  · exact List.countP_le_length.trans hlength
  · rw [sentCount, Nat.le_zero, List.countP_eq_zero]
    intro m hm
    rw [hkind m hm]
    simpa using he

theorem guarded_applyOne_of_sent {maxRetries : ℕ} (hfits : maxRetries ≠ 0 → value.FitsSingle)
    (verify : Bool) (timeout : ℚ) (last : ApplyError) :
    (applyOne cm conn name encoded value verify timeout maxRetries last).guarded packRefusal =
      applyOne cm conn name encoded value verify timeout maxRetries last := by
  cases maxRetries with
  | zero => exact guarded_applyOne_zero verify timeout last
  | succ n => exact guarded_applyOne (hfits n.succ_ne_zero) verify timeout (n + 1) last

/-- What a report says about the parameters it was made for, and about the events before it. -/
structure Covers (cm : CaseMap) (conn : Conn) (maxRetries : ℕ) (params : List (String × PyFloat))
    (events : List LinkEvent) (applied : List (String × PyFloat))
    (failures : List (String × PyFloat × ApplyError)) : Prop where
  names : (applied.map Prod.fst ++ failures.map Prod.fst).Perm (params.map Prod.fst)
  written : ∀ p ∈ applied, ∃ value, (p.1, value) ∈ params ∧
    Written cm conn p.1 value p.2 events
  sent : ∀ e, sentCount e events ≤
    maxRetries * params.countP fun p => (encodeName cm p.1).toOption = some e

theorem covers_nil (conn : Conn) (maxRetries : ℕ) : Covers cm conn maxRetries [] [] [] [] where
  names := .nil
  written p hp := by simp at hp
  sent e := by simp [sentCount]

section Cons

variable {maxRetries : ℕ} {params : List (String × PyFloat)} {own rest : List LinkEvent}
  {applied : List (String × PyFloat)} {failures : List (String × PyFloat × ApplyError)}

theorem sentCount_cons (henc : encodeName cm name = .ok encoded)
    (hown : ∀ e, sentCount e own ≤ if encoded = e then maxRetries else 0)
    (hrest : ∀ e, sentCount e rest ≤
      maxRetries * params.countP fun p => (encodeName cm p.1).toOption = some e) (e : List UInt8) :
    sentCount e (own ++ rest) ≤ maxRetries *
      ((name, value) :: params).countP fun p => (encodeName cm p.1).toOption = some e := by
  have ho := hown e
  have hr := hrest e
  rw [sentCount_append, List.countP_cons]
  have htop : (encodeName cm name).toOption = some encoded := by
    rw [henc]
    rfl
  by_cases he : encoded = e
  · simp only [he, if_true] at ho
    simp only [htop, he, decide_true, if_true, Nat.mul_add, Nat.mul_one]
    omega
  · simp only [he, if_false] at ho
    simp only [htop, Option.some.injEq, he, decide_false, Bool.false_eq_true, if_false,
      Nat.add_zero]
    omega

theorem Covers.consApplied {echo : PyFloat}
    (hc : Covers cm conn maxRetries params rest applied failures)
    (henc : encodeName cm name = .ok encoded) (hw : Written cm conn name value echo own)
    (hown : ∀ e, sentCount e own ≤ if encoded = e then maxRetries else 0) :
    Covers cm conn maxRetries ((name, value) :: params) (own ++ rest) ((name, echo) :: applied)
      failures where
  names := hc.names.cons name
  written p hp := by
    rcases List.mem_cons.mp hp with rfl | hp
    · exact ⟨value, List.mem_cons_self, hw.before rest⟩
    · obtain ⟨v, hv, hp⟩ := hc.written p hp
      exact ⟨v, List.mem_cons_of_mem _ hv, hp.after own⟩
  sent := sentCount_cons henc hown hc.sent

theorem Covers.consFailed (error : ApplyError)
    (hc : Covers cm conn maxRetries params rest applied failures)
    (henc : encodeName cm name = .ok encoded)
    (hown : ∀ e, sentCount e own ≤ if encoded = e then maxRetries else 0) :
    Covers cm conn maxRetries ((name, value) :: params) (own ++ rest) applied
      ((name, value, error) :: failures) where
  names := List.perm_middle.trans (hc.names.cons name)
  written p hp := by
    obtain ⟨v, hv, hp⟩ := hc.written p hp
    exact ⟨v, List.mem_cons_of_mem _ hv, hp.after own⟩
  sent := sentCount_cons henc hown hc.sent

end Cons

variable (conn) in
/-- A run over parameters that can all be sent returns a report that covers them. -/
theorem applyEach_covers (hl : IsLink h) (timeout : ℚ) (maxRetries : ℕ)
    (params : List (String × PyFloat)) (result : ApplyResult) (s : σ)
    (hparams : ∀ p ∈ params, (∃ e, encodeName cm p.1 = .ok e) ∧
      (maxRetries ≠ 0 → p.2.FitsSingle)) :
    ∃ applied failures,
      (((applyEach cm conn true timeout maxRetries params result).guarded packRefusal).run
        h s).result = .ok ⟨result.applied ++ applied, result.failures ++ failures⟩ ∧
      Covers cm conn maxRetries params (((applyEach cm conn true timeout maxRetries params
        result).guarded packRefusal).run h s).events applied failures := by
  induction params generalizing result s with
  | nil => exact ⟨[], [], by simp [applyEach, Program.guarded, Program.run, pure],
      covers_nil conn maxRetries⟩
  | cons p params ih =>
    obtain ⟨name, value⟩ := p
    obtain ⟨⟨encoded, henc⟩, hfits⟩ := hparams _ List.mem_cons_self
    have hrest : ∀ p ∈ params, (∃ e, encodeName cm p.1 = .ok e) ∧
        (maxRetries ≠ 0 → p.2.FitsSingle) := fun p hp => hparams p (List.mem_cons_of_mem _ hp)
    obtain ⟨o, ho, hw⟩ := applyOne_run hl conn value henc timeout maxRetries .noResponse s
    have hown := sentCount_applyOne cm hl conn name encoded value timeout maxRetries .noResponse s
    rw [applyEach_guarded_cons true timeout maxRetries params result henc, Program.run_bind,
      guarded_applyOne_of_sent hfits, Outcome.andThen_ok ho, Outcome.after_result,
      Outcome.after_events]
    cases o with
    | ok echo =>
      obtain ⟨applied, failures, hresult, hcovers⟩ :=
        ih { result with applied := result.applied ++ [(name, echo)] } _ hrest
      refine ⟨(name, echo) :: applied, failures, ?_, hcovers.consApplied henc (hw echo rfl) hown⟩
      rw [hresult, List.append_assoc]
      rfl
    | error error =>
      obtain ⟨applied, failures, hresult, hcovers⟩ :=
        ih { result with failures := result.failures ++ [(name, value, error)] } _ hrest
      refine ⟨applied, (name, value, error) :: failures, ?_, hcovers.consFailed error henc hown⟩
      rw [hresult, List.append_assoc]
      rfl

/-- A run that returns has found that every parameter can be sent. -/
theorem sendable_of_returns (hl : IsLink h) (timeout : ℚ) (maxRetries : ℕ)
    (params : List (String × PyFloat)) (result : ApplyResult) (s : σ) {r : ApplyResult}
    (hr : (((applyEach cm conn true timeout maxRetries params result).guarded packRefusal).run
      h s).result = .ok r) :
    ∀ p ∈ params, (∃ e, encodeName cm p.1 = .ok e) ∧ (maxRetries ≠ 0 → p.2.FitsSingle) := by
  induction params generalizing result s with
  | nil => simp
  | cons p params ih =>
    obtain ⟨name, value⟩ := p
    cases henc : encodeName cm name with
    | error x =>
      rw [applyEach, henc] at hr
      cases hr
    | ok encoded =>
      rw [applyEach_guarded_cons true timeout maxRetries params result henc, Program.run_bind] at hr
      have hfits : maxRetries ≠ 0 → value.FitsSingle := by
        intro hne
        by_contra hnot
        obtain ⟨n, rfl⟩ := Nat.exists_eq_succ_of_ne_zero hne
        obtain ⟨x, hx⟩ := run_guarded_applyOne_error cm conn name encoded h hnot true timeout n
          .noResponse s
        rw [Outcome.andThen_error hx] at hr
        cases hr
      obtain ⟨o, ho, -⟩ := applyOne_run hl conn value henc timeout maxRetries .noResponse s
      rw [guarded_applyOne_of_sent hfits, Outcome.andThen_ok ho, Outcome.after_result] at hr
      refine List.forall_mem_cons.mpr ⟨⟨⟨encoded, henc⟩, hfits⟩, ?_⟩
      cases o with
      | ok echo => exact ih _ _ hr
      | error error => exact ih _ _ hr

end Run

section Names

variable {cm}

theorem upper_of_normal (hcm : cm.Idempotent) {name n : String}
    (hn : normalizeName cm name = .ok n) : cm.upper n.toList = n.toList := by
  dsimp only [normalizeName] at hn
  split_ifs at hn
  obtain rfl : String.ofList (cm.upper (pyStrip name.toList)) = n := Except.ok.inj hn
  rw [String.toList_ofList, hcm]

theorem ofNat_toNat_injOn {a b : List Char} (ha : isAscii a = true) (hb : isAscii b = true)
    (h : (a.map fun c => UInt8.ofNat c.toNat) = b.map fun c => UInt8.ofNat c.toNat) : a = b := by
  induction a generalizing b with
  | nil =>
    cases b with
    | nil => rfl
    | cons d b => cases h
  | cons c a ih =>
    cases b with
    | nil => cases h
    | cons d b =>
      simp only [isAscii, List.all_cons, Bool.and_eq_true, decide_eq_true_eq] at ha hb
      simp only [List.map_cons, List.cons.injEq] at h
      have hbyte : c.toNat = d.toNat := by
        have := congrArg UInt8.toNat h.1
        rw [UInt8.toNat_ofNat', UInt8.toNat_ofNat'] at this
        omega
      rw [Char.toNat_inj.mp hbyte, ih ha.2 hb.2 h.2]

theorem encodeName_ok {name : String} {encoded : List UInt8}
    (h : encodeName cm name = .ok encoded) : isAscii (cm.upper name.toList) = true ∧
      encoded = (cm.upper name.toList).map fun c => UInt8.ofNat c.toNat := by
  dsimp only [encodeName] at h
  split_ifs at h with hascii hlength
  exact ⟨by simpa using hascii, (Except.ok.inj h).symm⟩

theorem eq_of_encodeName {a b : String} {encoded : List UInt8}
    (hua : cm.upper a.toList = a.toList) (hub : cm.upper b.toList = b.toList)
    (ha : encodeName cm a = .ok encoded) (hb : encodeName cm b = .ok encoded) : a = b := by
  obtain ⟨haascii, rfl⟩ := encodeName_ok ha
  obtain ⟨hbascii, hbytes⟩ := encodeName_ok hb
  have hchars := ofNat_toNat_injOn haascii hbascii hbytes
  rw [hua, hub] at hchars
  exact String.toList_inj.mp hchars

/-- A loaded set has at most one name of each encoding. -/
theorem countP_encodeName_le_one (hcm : cm.Idempotent) {params : ParamSet}
    (hparams : params.Normal cm) {n : String} {encoded : List UInt8} (hn : n ∈ params.names)
    (henc : encodeName cm n = .ok encoded) :
    (params.values.countP fun p => (encodeName cm p.1).toOption = some encoded) ≤ 1 := by
  have hupper : ∀ k ∈ params.names, cm.upper k.toList = k.toList := by
    intro k hk
    obtain ⟨name, hname⟩ := hparams k hk
    exact upper_of_normal hcm hname
  have hsame : ∀ p ∈ params.values, (encodeName cm p.1).toOption = some encoded → p.1 = n := by
    intro p hp htop
    have hmem : p.1 ∈ params.names := List.mem_map_of_mem hp
    cases he : encodeName cm p.1 with
    | error x =>
      rw [he] at htop
      cases htop
    | ok e =>
      rw [he] at htop
      obtain rfl : e = encoded := Option.some.inj htop
      exact eq_of_encodeName (hupper _ hmem) (hupper _ hn) he henc
  calc (params.values.countP fun p => (encodeName cm p.1).toOption = some encoded)
      ≤ params.values.countP fun p => p.1 = n := by
        apply List.countP_mono_left
        intro p hp htop
        exact decide_eq_true (hsame p hp (of_decide_eq_true htop))
    _ = params.names.count n := by
        rw [List.count, ParamSet.names, List.countP_map]
        rfl
    _ ≤ 1 := List.nodup_iff_count_le_one.mp params.nodup n

end Names

/-- An application reports every name once exactly when every name can be encoded and every value
sent. -/
theorem applyParams_reports_iff {cm : CaseMap} (hcm : cm.Idempotent) {path : String}
    {file : ParamFile} {params : ParamSet} (hload : loadParamFile cm path file = .ok params)
    (conn : Conn) (timeout : ℚ) (maxRetries : ℕ) (s : Link) :
    (∃ r, ReportedAs cm params maxRetries
      ((applyParamsPacked cm conn params true timeout maxRetries).run link s) r) ↔
        Sendable cm params maxRetries := by
  have hsorted : params.asSortedDict.Perm params.values := List.mergeSort_perm _ _
  constructor
  · rintro ⟨r, hr⟩ p hp
    exact sendable_of_returns isLink_link timeout maxRetries params.asSortedDict {} s hr.returns p
      (hsorted.mem_iff.mpr hp)
  · intro hsend
    obtain ⟨applied, failures, hresult, hcovers⟩ := applyEach_covers conn isLink_link
      timeout maxRetries params.asSortedDict {} s fun p hp => hsend p (hsorted.mem_iff.mp hp)
    simp only [List.nil_append] at hresult
    have hnames : (applied.map Prod.fst ++ failures.map Prod.fst).Perm params.names :=
      hcovers.names.trans (hsorted.map Prod.fst)
    refine ⟨⟨applied, failures⟩, hresult, hnames, ?_, ?_⟩
    · intro p hp
      obtain ⟨value, hvalue, encoded, before, m, after, -, hevents, hm, hecho, hwithin⟩ :=
        hcovers.written p hp
      refine ⟨value, hsorted.mem_iff.mp hvalue, ⟨m, ?_, hecho⟩, hwithin⟩
      rw [applyParamsPacked, applyParams, hevents]
      exact List.mem_append_right _ (List.mem_cons_of_mem _ hm)
    · intro f hf
      have hmem : f.1 ∈ params.names :=
        hnames.mem_iff.mp (List.mem_append_right _ (List.mem_map_of_mem hf))
      obtain ⟨p, hp, hpf⟩ := List.mem_map.mp hmem
      obtain ⟨⟨encoded, henc⟩, -⟩ := hsend p hp
      rw [hpf] at henc
      have hone := countP_encodeName_le_one hcm (loadParamFile_normal hload) hmem henc
      rw [timesSent_eq cm henc]
      calc sentCount encoded _
          ≤ maxRetries * params.asSortedDict.countP fun p =>
              (encodeName cm p.1).toOption = some encoded := hcovers.sent encoded
        _ = maxRetries * params.values.countP fun p =>
              (encodeName cm p.1).toOption = some encoded := by rw [hsorted.countP_eq]
        _ ≤ maxRetries * 1 := Nat.mul_le_mul_left maxRetries hone
        _ = maxRetries := Nat.mul_one maxRetries

/-- A file with one parameter, and nobody who answers. -/
theorem applyParams_reports_fence : ∃ r, ReportedAs .asciiOnly
    ⟨[("FENCE_ENABLE", .fin 1)], List.nodup_singleton _⟩ 3
      ((applyParamsPacked .asciiOnly ⟨1, 1⟩ ⟨[("FENCE_ENABLE", .fin 1)], List.nodup_singleton _⟩
        true 2 3).run link ⟨[], []⟩) r := by
  have hload : loadParamFile .asciiOnly "fence.yaml"
      (.yaml (.ok (.dict [(.str "FENCE_ENABLE", .float (.fin 1))]))) =
        .ok ⟨[("FENCE_ENABLE", .fin 1)], List.nodup_singleton _⟩ := rfl
  apply (applyParams_reports_iff CaseMap.idempotent_asciiOnly hload ⟨1, 1⟩ 2 3 ⟨[], []⟩).mpr
  intro p hp
  obtain rfl := List.mem_singleton.mp hp
  constructor
  · exact exists_ok_of_isOk (show (encodeName .asciiOnly "FENCE_ENABLE").isOk = true by
      decide +kernel)
  · intro _
    norm_num [PyFloat.FitsSingle]

/-- A good name, and one of 22 characters after it. -/
def longName : ParamSet :=
  ⟨[("FENCE_ENABLE", .fin 1), ("FENCE_MARGIN_NEAR_HOME", .fin 1)], by decide⟩

theorem applyParams_long_name :
    loadParamFile .asciiOnly "fence.yaml"
      (.yaml (.ok (.dict [(.str "FENCE_ENABLE", .float (.fin 1)),
        (.str "FENCE_MARGIN_NEAR_HOME", .float (.fin 1))]))) = .ok longName ∧
      ¬ ∃ r, ReportedAs .asciiOnly longName 3
        ((applyParamsPacked .asciiOnly ⟨1, 1⟩ longName true 2 3).run link ⟨[], []⟩) r := by
  refine ⟨rfl, fun ⟨r, hr⟩ => ?_⟩
  obtain ⟨⟨encoded, henc⟩, -⟩ := sendable_of_returns isLink_link 2 3 _ {} ⟨[], []⟩ hr.returns
    ("FENCE_MARGIN_NEAR_HOME", .fin 1) (ParamSet.mem_asSortedDict.mpr (by simp [longName]))
  have hlong : (encodeName .asciiOnly "FENCE_MARGIN_NEAR_HOME").isOk = false := by decide +kernel
  rw [henc] at hlong
  cases hlong

end MowerRover.Params
