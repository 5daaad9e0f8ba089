import MowerRover.Mavlink.Link
import MowerRover.Text

/-!
# Setting parameters

`apply_params` sends each parameter, waits for a `PARAM_VALUE` of that name and
takes the first one as the echo, whenever it was sent. An echo close to the
requested value ends the retries of that parameter.
-/

namespace MowerRover.Params

open Effects Numeric Mavlink

/-- Single-precision verify tolerance, the double `1e-4`. -/
def verifyTol : ℚ := 7378697629483821 / 2 ^ 66

example : PyFloat.ofRat (1 / 10 ^ 4) = .fin verifyTol := by decide +kernel

/-- An ordered, name-keyed container of parameters. -/
@[ext]
structure ParamSet where
  values : List (String × PyFloat)
  nodup : (values.map Prod.fst).Nodup

def ParamSet.asSortedDict (params : ParamSet) : List (String × PyFloat) :=
  params.values.mergeSort fun a b => a.1 ≤ b.1

theorem ParamSet.mem_asSortedDict {params : ParamSet} {p : String × PyFloat} :
    p ∈ params.asSortedDict ↔ p ∈ params.values := by
  simp [asSortedDict, List.mem_mergeSort]

/-- Why a parameter was not applied: `no response`, `no PARAM_VALUE echo`, or
`echo x != requested y`. -/
inductive ApplyError
  | noResponse
  | noEcho
  | mismatch (echo value : PyFloat)
  deriving DecidableEq, Repr

structure ApplyResult where
  applied : List (String × PyFloat) := []
  failures : List (String × PyFloat × ApplyError) := []
  deriving DecidableEq, Repr

variable (cm : CaseMap)

/-- A byte decoded as ASCII, with a replacement character for what is not. -/
def asciiChar (b : UInt8) : Char := if b < 128 then Char.ofNat b.toNat else Char.ofNat 0xfffd

def decodeName : ParamId → String
  | .bytes b => String.ofList (cm.upper ((b.takeWhile (· ≠ 0)).map asciiChar))
  | .text s => String.ofList (cm.upper (pyStrip (s.toList.takeWhile (· ≠ Char.ofNat 0))))

def encodeName (name : String) : Except PyError (List UInt8) :=
  let upper := cm.upper name.toList
  if !isAscii upper then throw (.value
    "'ascii' codec can't encode characters: ordinal not in range(128)")
  else if upper.length > 16 then throw (.value s!"param name {strRepr name} exceeds 16 bytes")
  else pure (upper.map fun c => UInt8.ofNat c.toNat)

/-- The value of a message that answers for this name. -/
def echoOf (name : String) : Msg → Option PyFloat
  | .paramValue paramId value _ => if decodeName cm paramId = name then some value else none
  | _ => none

def awaitParamEcho (name : String) (timeout : ℚ) : LinkM (Option PyFloat) :=
  waitWithin timeout [.paramValue] (echoOf cm name)

/-- The retry loop of one parameter, with the last error so far. -/
def applyOne (conn : Conn) (name : String) (encoded : List UInt8) (value : PyFloat) (verify : Bool)
    (timeout : ℚ) : ℕ → ApplyError → LinkM (Except ApplyError PyFloat)
  | 0, lastError => pure (.error lastError)
  | attempts + 1, _ => do
    send conn (.paramSet encoded value)
    if !verify then pure (.ok value)
    else
      match ← awaitParamEcho cm name timeout with
      | none => applyOne conn name encoded value verify timeout attempts .noEcho
      | some echo =>
        if echo.within verifyTol value then pure (.ok echo)
        else applyOne conn name encoded value verify timeout attempts (.mismatch echo value)

def applyEach (conn : Conn) (verify : Bool) (timeout : ℚ) (maxRetries : ℕ) :
    List (String × PyFloat) → ApplyResult → LinkM ApplyResult
  | [], result => pure result
  | (name, value) :: rest, result =>
    match encodeName cm name with
    | .error error => throw error
    | .ok encoded => do
      match ← applyOne cm conn name encoded value verify timeout maxRetries .noResponse with
      | .ok success =>
        applyEach conn verify timeout maxRetries rest
          { result with applied := result.applied ++ [(name, success)] }
      | .error error =>
        applyEach conn verify timeout maxRetries rest
          { result with failures := result.failures ++ [(name, value, error)] }

def applyParams (conn : Conn) (params : ParamSet) (verify : Bool) (timeout : ℚ)
    (maxRetries : ℕ) : LinkM ApplyResult :=
  applyEach cm conn verify timeout maxRetries params.asSortedDict {}

/-- The parameter was sent, and after that a message came that answers for it with
a value close to the requested one. -/
def Written (conn : Conn) (name : String) (value echo : PyFloat) (events : List LinkEvent) : Prop :=
  ∃ encoded before m after, encodeName cm name = .ok encoded ∧
    events = before ++ .sent conn (.paramSet encoded value) :: after ∧ .took m ∈ after ∧
      echoOf cm name m = some echo ∧ echo.within verifyTol value = true

section Applied

variable {cm} {conn : Conn} {name : String} {value echo : PyFloat}
  {σ : Type} {h : Handler linkSignature σ LinkEvent}

theorem Written.after {events : List LinkEvent} (hw : Written cm conn name value echo events)
    (earlier : List LinkEvent) : Written cm conn name value echo (earlier ++ events) := by
  obtain ⟨encoded, before, m, after, henc, rfl, hm⟩ := hw
  exact ⟨encoded, earlier ++ before, m, after, henc, by simp, hm⟩

theorem Written.before {events : List LinkEvent} (hw : Written cm conn name value echo events)
    (later : List LinkEvent) : Written cm conn name value echo (events ++ later) := by
  obtain ⟨encoded, before, m, after, henc, rfl, hm, hecho⟩ := hw
  exact ⟨encoded, before, m, after ++ later, henc, by simp, by simp [hm], hecho⟩

/-- The retries of one parameter always end, and end well only with an echo. -/
theorem applyOne_run (hl : IsLink h) (conn : Conn) (value : PyFloat) {encoded : List UInt8}
    (henc : encodeName cm name = .ok encoded) (timeout : ℚ) (attempts : ℕ) (last : ApplyError)
    (s : σ) :
    ∃ r, ((applyOne cm conn name encoded value true timeout attempts last).run h s).result = .ok r ∧
      ∀ echo, r = .ok echo → Written cm conn name value echo
        ((applyOne cm conn name encoded value true timeout attempts last).run h s).events := by
  induction attempts generalizing last s with
  | zero => exact ⟨.error last, rfl, by simp⟩
  | succ attempts ih =>
    obtain ⟨res, hres, hwait⟩ := waitWithin_waited hl timeout [.paramValue] (echoOf cm name)
      (h (.send conn (.paramSet encoded value)) s).2.1
    unfold applyOne awaitParamEcho
    simp only [Program.run_bind, run_send hl, Outcome.andThen_mk_ok, Bool.not_true,
      Bool.false_eq_true, if_false, Outcome.after_result, Outcome.after_events,
      Outcome.andThen_ok hres]
    have hretry : ∀ last s', ∃ r,
        ((applyOne cm conn name encoded value true timeout attempts last).run h s').result = .ok r ∧
          ∀ echo, r = .ok echo → ∀ earlier, Written cm conn name value echo (earlier ++
            ((applyOne cm conn name encoded value true timeout attempts last).run h
              s').events) := by
      intro last s'
      obtain ⟨r, hr, hw⟩ := ih last s'
      exact ⟨r, hr, fun echo hecho earlier => (hw echo hecho).after earlier⟩
    cases res with
    | none =>
      obtain ⟨r, hr, hw⟩ := hretry .noEcho _
      exact ⟨r, hr, fun echo hecho => by simpa using hw echo hecho (_ :: _)⟩
    | some e =>
      by_cases he : e.within verifyTol value = true
      · refine ⟨.ok e, by simp [he], ?_⟩
        obtain ⟨m, hm, haccept⟩ := hwait.accepted_took
        rintro echo ⟨⟩
        exact ⟨encoded, [], m, _, henc, by simp [he], hm, haccept, he⟩
      · obtain ⟨r, hr, hw⟩ := hretry (.mismatch e value) _
        simp only [if_neg he]
        exact ⟨r, hr, fun echo hecho => by simpa using hw echo hecho (_ :: _)⟩

/-- What was applied has been written, and every parameter was applied or failed. -/
theorem applyEach_run (hl : IsLink h) (timeout : ℚ) (maxRetries : ℕ)
    (params : List (String × PyFloat)) (result : ApplyResult) (s : σ) {r : ApplyResult}
    (hr : ((applyEach cm conn true timeout maxRetries params result).run h s).result = .ok r) :
    ∃ applied failures, r = ⟨result.applied ++ applied, result.failures ++ failures⟩ ∧
      (∀ p ∈ applied, ∃ value, (p.1, value) ∈ params ∧ Written cm conn p.1 value p.2
        ((applyEach cm conn true timeout maxRetries params result).run h s).events) ∧
      ∀ p ∈ params, (∃ echo, (p.1, echo) ∈ applied) ∨ ∃ e, (p.1, p.2, e) ∈ failures := by
  induction params generalizing result s with
  | nil =>
    obtain rfl : result = r := Except.ok.inj hr
    exact ⟨[], [], by simp, by simp, by simp⟩
  | cons p params ih =>
    obtain ⟨name, value⟩ := p
    unfold applyEach at hr ⊢
    cases henc : encodeName cm name with
    | error x => simp [henc] at hr
    | ok encoded =>
      obtain ⟨o, ho, hw⟩ := applyOne_run hl conn value henc timeout maxRetries .noResponse s
      simp only [henc, Program.run_bind, Outcome.andThen_ok ho, Outcome.after_result,
        Outcome.after_events] at hr ⊢
      cases o with
      | ok echo =>
        obtain ⟨applied, failures, rfl, hwritten, hall⟩ := ih _ _ hr
        refine ⟨(name, echo) :: applied, failures, by simp, ?_, ?_⟩
        · intro p hp
          rcases List.mem_cons.mp hp with rfl | hp
          · exact ⟨value, List.mem_cons_self, (hw echo rfl).before _⟩
          · obtain ⟨v, hv, hp⟩ := hwritten p hp
            exact ⟨v, List.mem_cons_of_mem _ hv, hp.after _⟩
        · intro p hp
          rcases List.mem_cons.mp hp with rfl | hp
          · exact .inl ⟨echo, List.mem_cons_self⟩
          · exact (hall p hp).imp_left fun ⟨e, he⟩ => ⟨e, List.mem_cons_of_mem _ he⟩
      | error e =>
        obtain ⟨applied, failures, rfl, hwritten, hall⟩ := ih _ _ hr
        refine ⟨applied, (name, value, e) :: failures, by simp, ?_, ?_⟩
        · intro p hp
          obtain ⟨v, hv, hp⟩ := hwritten p hp
          exact ⟨v, List.mem_cons_of_mem _ hv, hp.after _⟩
        · intro p hp
          rcases List.mem_cons.mp hp with rfl | hp
          · exact .inr ⟨e, List.mem_cons_self⟩
          · exact (hall p hp).imp_right fun ⟨x, hx⟩ => ⟨x, List.mem_cons_of_mem _ hx⟩

/-- A parameter set that was applied without a failure: each of its parameters was
written, and what is reported as applied is the accepted echo. -/
theorem applyParams_run (hl : IsLink h) {params : ParamSet} {timeout : ℚ} {maxRetries : ℕ} {s : σ}
    {r : ApplyResult}
    (hr : ((applyParams cm conn params true timeout maxRetries).run h s).result = .ok r)
    (hok : r.failures = []) :
    (∀ p ∈ r.applied, ∃ value, (p.1, value) ∈ params.values ∧ Written cm conn p.1 value p.2
        ((applyParams cm conn params true timeout maxRetries).run h s).events) ∧
      ∀ p ∈ params.values, ∃ echo, (p.1, echo) ∈ r.applied := by
  obtain ⟨applied, failures, rfl, hwritten, hall⟩ :=
    applyEach_run hl timeout maxRetries params.asSortedDict {} s hr
  simp only [List.nil_append] at hok ⊢
  subst hok
  refine ⟨fun p hp => ?_, fun p hp => ?_⟩
  · obtain ⟨value, hv, hw⟩ := hwritten p hp
    exact ⟨value, ParamSet.mem_asSortedDict.mp hv, hw⟩
  · simpa using hall p (ParamSet.mem_asSortedDict.mpr hp)

end Applied
end MowerRover.Params
