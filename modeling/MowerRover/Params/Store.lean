import MowerRover.Params.Mav

/-!
# Parameters applied and parameters held

The autopilot as a parameter store that other ground stations change as well.
It announces the value it holds at any time, also after storing a `PARAM_SET`,
and a `PARAM_SET` may be lost on the way. A log keeps the moments of a run:
the stores in their order, and each `PARAM_SET` with the messages that were
queued for the client when it was sent. An announcement of the requested value
that is queued when the first `PARAM_SET` goes out is taken for its echo; as
long as there is none, an applied parameter has really been held.
-/

namespace MowerRover.Params

open Effects Numeric Mavlink

inductive Moment
  | set (paramId : List UInt8) (queued : List Msg)
  | held (store : String → Option PyFloat)

structure ParamWorld where
  store : String → Option PyFloat
  inbox : List Msg
  toClient : List Msg
  toAutopilot : List Msg
  log : List Moment
  /-- what is kept of a value that is to be stored: single precision, limits -/
  keep : PyFloat → PyFloat

inductive ParamMove
  | deliver
  /-- the next message reaches the autopilot -/
  | handle
  /-- the next message to the autopilot is lost -/
  | lose
  /-- another ground station or the autopilot itself changes a value -/
  | change (name : String) (value : Option PyFloat)
  | announce (paramId : ParamId) (paramCount : ℕ)

namespace ParamWorld

variable (cm : CaseMap)

/-- Messages that the client has not taken yet, the oldest first. -/
def queued (w : ParamWorld) : List Msg := w.inbox ++ w.toClient

def hold (w : ParamWorld) : ParamWorld := { w with log := w.log ++ [.held w.store] }

/-- Send the value held under a name, if there is one. -/
def announce (w : ParamWorld) (paramId : ParamId) (paramCount : ℕ) : ParamWorld :=
  match w.store (decodeName cm paramId) with
  | some value => { w with toClient := w.toClient ++ [.paramValue paramId value paramCount] }
  | none => w

def setParam (w : ParamWorld) (paramId : List UInt8) (value : PyFloat) : ParamWorld :=
  { w with store := Function.update w.store (decodeName cm (.bytes paramId)) (some (w.keep value)) }

def receive (w : ParamWorld) : Msg → ParamWorld
  | .paramSet paramId value => (w.setParam cm paramId value).announce cm (.bytes paramId) 0
  | _ => w

def step (w : ParamWorld) : ParamMove → ParamWorld
  | .deliver =>
    match w.toClient with
    | [] => w
    | m :: ms => { w with inbox := w.inbox ++ [m], toClient := ms }
  | .handle =>
    match w.toAutopilot with
    | [] => w
    | m :: ms => { w with toAutopilot := ms }.receive cm m
  | .lose => { w with toAutopilot := w.toAutopilot.tail }
  | .change name value => { w with store := Function.update w.store name value }
  | .announce paramId paramCount => w.announce cm paramId paramCount

/-- The client sends; the log remembers what is queued for it. -/
def accept (w : ParamWorld) (m : Msg) : ParamWorld :=
  let sent := { w with toAutopilot := w.toAutopilot ++ [m] }
  match m with
  | .paramSet paramId _ => { sent with log := w.log ++ [.set paramId w.queued] }
  | _ => sent

end ParamWorld

/-- Every move and every call of the client leaves a moment in the log. -/
def paramStore (cm : CaseMap) : Peer ParamMove ParamWorld where
  move w m := (w.step cm m).hold
  send w _ m := (w.accept m).hold
  inbox := ParamWorld.inbox
  leave w rest := { w with inbox := rest }

section Echo

variable (cm : CaseMap) (name : String) (value : PyFloat) (paramId : List UInt8)

/-- A message that `apply_params` would take for a confirmation. -/
def Confirms (m : Msg) (x : PyFloat) : Prop :=
  echoOf cm name m = some x ∧ x.within verifyTol value = true

/-- No confirmation is queued when the name is set for the first time. -/
def NoStaleEcho (log : List Moment) : Prop :=
  ∀ before queued after, log = before ++ .set paramId queued :: after →
    (∀ q, .set paramId q ∉ before) → ∀ m ∈ queued, ∀ x, ¬ Confirms cm name value m x

/-- At some moment after the name was first set, this value was held under it. -/
def HeldAfterSet (x : PyFloat) (log : List Moment) : Prop :=
  ∃ before queued after, log = before ++ .set paramId queued :: after ∧
    (∀ q, .set paramId q ∉ before) ∧ ∃ store, .held store ∈ after ∧ store name = some x

variable {cm name value paramId}

theorem HeldAfterSet.mono {x : PyFloat} {log log' : List Moment}
    (h : HeldAfterSet name paramId x log) (hlog : log <+: log') :
    HeldAfterSet name paramId x log' := by
  obtain ⟨more, rfl⟩ := hlog
  obtain ⟨before, queued, after, rfl, hfirst, store, hstore, hx⟩ := h
  exact ⟨before, queued, after ++ more, by simp, hfirst, store, by simp [hstore], hx⟩

theorem first_set {log : List Moment} (h : ∃ queued, .set paramId queued ∈ log) :
    ∃ before queued after, log = before ++ .set paramId queued :: after ∧
      ∀ q, .set paramId q ∉ before := by
  induction log with
  | nil => simp at h
  | cons e log ih =>
    by_cases he : ∃ queued, e = .set paramId queued
    · obtain ⟨queued, rfl⟩ := he
      exact ⟨[], queued, log, rfl, by simp⟩
    · obtain ⟨queued, hmem⟩ := h
      have hmem' : .set paramId queued ∈ log :=
        (List.mem_cons.mp hmem).resolve_left fun heq => he ⟨queued, heq.symm⟩
      obtain ⟨before, queued', after, rfl, hfirst⟩ := ih ⟨queued, hmem'⟩
      refine ⟨e :: before, queued', after, rfl, fun q hq => ?_⟩
      rcases List.mem_cons.mp hq with heq | hq
      · exact he ⟨q, heq.symm⟩
      · exact hfirst q hq

theorem heldAfterSet_hold {w : ParamWorld} {x : PyFloat}
    (hset : ∃ queued, .set paramId queued ∈ w.log) (hx : w.store name = some x) :
    HeldAfterSet name paramId x w.hold.log := by
  obtain ⟨before, queued, after, hlog, hfirst⟩ := first_set hset
  exact ⟨before, queued, after ++ [.held w.store], by simp [ParamWorld.hold, hlog], hfirst,
    w.store, by simp, hx⟩

theorem ParamWorld.announce_queued (w : ParamWorld) (id : ParamId) (count : ℕ) :
    ∀ m ∈ (w.announce cm id count).queued, m ∈ w.queued ∨
      ∃ value, m = .paramValue id value count ∧ w.store (decodeName cm id) = some value := by
  intro m hm
  unfold announce at hm
  cases hv : w.store (decodeName cm id) with
  | none => exact .inl (by simpa [hv] using hm)
  | some value =>
    simp only [hv, queued, ← List.append_assoc] at hm
    rcases List.mem_append.mp hm with hm | hm
    · exact .inl hm
    · exact .inr ⟨value, List.mem_singleton.mp hm, rfl⟩

theorem ParamWorld.announce_frame (cm : CaseMap) (w : ParamWorld) (id : ParamId) (count : ℕ) :
    (w.announce cm id count).log = w.log ∧ (w.announce cm id count).store = w.store := by
  unfold announce
  split <;> exact ⟨rfl, rfl⟩

/-- A step leaves the log alone, and what it queues is a value of the new store. -/
theorem ParamWorld.step_queued (cm : CaseMap) (w : ParamWorld) (mv : ParamMove) :
    (w.step cm mv).log = w.log ∧ ∀ m ∈ (w.step cm mv).queued, m ∈ w.queued ∨
      ∃ id value count, m = .paramValue id value count ∧
        (w.step cm mv).store (decodeName cm id) = some value := by
  have hann : ∀ (v : ParamWorld) id count, v.log = w.log → v.queued = w.queued →
      (v.announce cm id count).log = w.log ∧ ∀ m ∈ (v.announce cm id count).queued,
        m ∈ w.queued ∨ ∃ id' value count', m = .paramValue id' value count' ∧
          (v.announce cm id count).store (decodeName cm id') = some value := by
    intro v id count hlog hq
    obtain ⟨hl, hs⟩ := v.announce_frame cm id count
    refine ⟨hl.trans hlog, fun m hm => ?_⟩
    rcases v.announce_queued id count m hm with hm | ⟨value, rfl, hv⟩
    · exact .inl (hq ▸ hm)
    · exact .inr ⟨id, value, count, rfl, hs ▸ hv⟩
  cases mv with
  | deliver =>
    cases hq : w.toClient with
    | nil => exact ⟨by simp [step, hq], fun m hm => .inl (by simpa [step, hq] using hm)⟩
    | cons m ms =>
      exact ⟨by simp [step, hq], fun m' hm => .inl (by simpa [step, hq, queued] using hm)⟩
  | handle =>
    cases hq : w.toAutopilot with
    | nil => exact ⟨by simp [step, hq], fun m hm => .inl (by simpa [step, hq] using hm)⟩
    | cons m ms =>
      cases m with
      | paramSet id value =>
        simpa [step, hq, receive] using
          hann (({ w with toAutopilot := ms } : ParamWorld).setParam cm id value) (.bytes id) 0
            rfl rfl
      | _ => exact ⟨by simp [step, hq, receive], fun m hm => .inl (by
          simpa [step, hq, receive, queued] using hm)⟩
  | lose => exact ⟨rfl, fun m hm => .inl hm⟩
  | change n v => exact ⟨rfl, fun m hm => .inl hm⟩
  | announce id count => exact hann w id count rfl rfl

/-- In a run whose log ends as `final`: once the name has been set, every
confirmation that was taken or is queued announces a value held since then. -/
def Tracked (cm : CaseMap) (name : String) (value : PyFloat) (paramId : List UInt8)
    (final : List Moment) (taken : List Msg) (w : ParamWorld) : Prop :=
  w.log <+: final → (∃ queued, .set paramId queued ∈ w.log) →
    ∀ m ∈ taken ++ w.queued, ∀ x, Confirms cm name value m x →
      HeldAfterSet name paramId x w.log

variable {final : List Moment}

theorem Tracked.move (mv : ParamMove) (taken : List Msg) (w : ParamWorld)
    (hT : Tracked cm name value paramId final taken w) :
    Tracked cm name value paramId final taken ((w.step cm mv).hold) := by
  obtain ⟨hlog, hqueued⟩ := w.step_queued cm mv
  intro hfinal ⟨q, hq⟩ m hm x hx
  have hlog' : (w.step cm mv).hold.log = w.log ++ [.held (w.step cm mv).store] := by
    simp [ParamWorld.hold, hlog]
  have hset : ∃ q, .set paramId q ∈ w.log := ⟨q, by simpa [hlog'] using hq⟩
  have hpre : w.log <+: (w.step cm mv).hold.log := hlog' ▸ List.prefix_append _ _
  rcases List.mem_append.mp hm with hm | hm
  · exact (hT (hpre.trans hfinal) hset m (by simp [hm]) x hx).mono hpre
  rcases hqueued m hm with hm | ⟨id, v, count, rfl, hv⟩
  · exact (hT (hpre.trans hfinal) hset m (by simp [hm]) x hx).mono hpre
  · obtain ⟨hname, rfl⟩ : decodeName cm id = name ∧ v = x := by
      have := hx.1
      simp only [echoOf] at this
      split_ifs at this with hname
      exact ⟨hname, Option.some.inj this⟩
    exact heldAfterSet_hold (hlog ▸ hset) (hname ▸ hv)

theorem Tracked.send (hfresh : NoStaleEcho cm name value paramId final) (m : Msg)
    (w : ParamWorld) (hT : Tracked cm name value paramId final [] w) :
    Tracked cm name value paramId final [] ((w.accept m).hold) := by
  have hqueued : (w.accept m).hold.queued = w.queued := by cases m <;> rfl
  have hpre : w.log <+: (w.accept m).hold.log := by
    cases m <;> simp [ParamWorld.accept, ParamWorld.hold]
  intro hfinal ⟨q, hq⟩ m' hm' x hx
  rw [hqueued] at hm'
  by_cases hset : ∃ q, .set paramId q ∈ w.log
  · exact (hT (hpre.trans hfinal) hset m' hm' x hx).mono hpre
  · -- the message sets the name for the first time
    obtain ⟨v, rfl⟩ : ∃ v, m = .paramSet paramId v := by
      cases m <;> simp_all [ParamWorld.accept, ParamWorld.hold]
    obtain ⟨rest, rfl⟩ := hfinal
    refine absurd hx (hfresh w.log w.queued (.held w.store :: rest) ?_ (by simpa using hset) m'
      (by simpa using hm') x)
    simp [ParamWorld.accept, ParamWorld.hold]

theorem Tracked.take (got rest taken : List Msg) (w : ParamWorld) (hq : w.inbox = got ++ rest)
    (hT : Tracked cm name value paramId final taken w) :
    Tracked cm name value paramId final (taken ++ got) { w with inbox := rest } := by
  intro hfinal hset m hm x hx
  refine hT hfinal hset m ?_ x hx
  simpa [ParamWorld.queued, hq] using hm

end Echo

section Run

variable {cm : CaseMap} {name : String} {value : PyFloat} {paramId : List UInt8}
  {final : List Moment} {conn : Conn} {timeout : ℚ}

abbrev ParamLoop := Scheduled ParamMove ParamWorld

theorem log_mono {α : Type} (cm : CaseMap) (p : LinkM α) (s : ParamLoop) :
    s.state.log <+: (p.run (paramStore cm).link s).state.state.log := by
  refine (paramStore cm).run_taken (I := fun _ w => s.state.log <+: w.log) ?_ ?_ ?_ (calls_any p)
    [] s List.prefix_rfl
  · intro mv _ w h
    have hlog : w.log <+: ((w.step cm mv).hold).log := by
      simp [ParamWorld.hold, (w.step_queued cm mv).1]
    exact h.trans hlog
  · intro c m _ w _ h
    have hlog : w.log <+: ((w.accept m).hold).log := by
      cases m <;> simp [ParamWorld.accept, ParamWorld.hold]
    exact h.trans hlog
  · intro _ _ _ w _ h
    exact h

theorem tracked_run (hfresh : NoStaleEcho cm name value paramId final) {α : Type} (p : LinkM α)
    (s : ParamLoop) (hs : Tracked cm name value paramId final [] s.state) :
    Tracked cm name value paramId final [] (p.run (paramStore cm).link s).state.state := by
  refine (paramStore cm).run_taken
    (I := fun _ w => Tracked cm name value paramId final [] w) ?_ ?_ ?_ (calls_any p) [] s hs
  · exact fun mv _ w => Tracked.move mv [] w
  · exact fun _ m _ w _ => Tracked.send hfresh m w
  · intro got rest _ w hq h hfinal hset m hm
    exact Tracked.take got rest [] w hq h hfinal hset m (by simpa using .inr hm)

/-- A confirmation that is waited for after the name was set has been held. -/
theorem awaitParamEcho_held (s : ParamLoop)
    (hs : Tracked cm name value paramId final [] s.state)
    (hset : ∃ queued, .set paramId queued ∈ s.state.log) {x : PyFloat}
    (hres : ((awaitParamEcho cm name timeout).run (paramStore cm).link s).result = .ok (some x))
    (hx : x.within verifyTol value = true)
    (hfinal : ((awaitParamEcho cm name timeout).run (paramStore cm).link s).state.state.log <+:
      final) : HeldAfterSet name paramId x final := by
  have hT := (paramStore cm).run_taken (I := Tracked cm name value paramId final) Tracked.move
    (fun _ _ _ _ h => h.elim) Tracked.take
    (calls_waitWithin (fun _ => False) timeout [.paramValue] (echoOf cm name)) [] s hs
  obtain ⟨res, hr, hw⟩ := waitWithin_waited (paramStore cm).isLink timeout [.paramValue]
    (echoOf cm name) s
  obtain rfl : res = some x := Except.ok.inj (hr.symm.trans hres)
  obtain ⟨m, hm, hacc⟩ := hw.accepted_mem
  obtain ⟨queued, hq⟩ := hset
  have hset' := (log_mono cm (awaitParamEcho cm name timeout) s).subset hq
  exact (hT hfinal ⟨queued, hset'⟩ m (by simp [hm]) x ⟨hacc, hx⟩).mono hfinal

/-- A parameter that its retry loop reports as applied has been held. -/
theorem applyOne_held (hfresh : NoStaleEcho cm name value paramId final) (attempts : ℕ)
    (lastError : ApplyError) (s : ParamLoop)
    (hs : Tracked cm name value paramId final [] s.state) {x : PyFloat}
    (hres : ((applyOne cm conn name paramId value true timeout attempts lastError).run
      (paramStore cm).link s).result = .ok (.ok x))
    (hfinal : ((applyOne cm conn name paramId value true timeout attempts lastError).run
      (paramStore cm).link s).state.state.log <+: final) :
    x.within verifyTol value = true ∧ HeldAfterSet name paramId x final := by
  induction attempts generalizing lastError s with
  | zero => simp [applyOne] at hres
  | succ attempts ih =>
    have hl := (paramStore cm).isLink
    have hs₁ := tracked_run hfresh (send conn (.paramSet paramId value)) s hs
    rw [run_send hl] at hs₁
    simp only [applyOne, Program.run_bind, run_send hl, Outcome.andThen_mk_ok, Bool.not_true,
      Bool.false_eq_true, if_false, Outcome.after_result, Outcome.after_state] at hres hfinal
    generalize hs' : ((paramStore cm).link (.send conn (.paramSet paramId value)) s).2.1 = s₁ at *
    have hset : ∃ queued, .set paramId queued ∈ s₁.state.log := by
      rw [← hs', (paramStore cm).link_send]
      exact ⟨((paramStore cm).moved s).queued, by
        simp [paramStore, ParamWorld.accept, ParamWorld.hold]⟩
    obtain ⟨res, hr, -⟩ := waitWithin_waited hl timeout [.paramValue] (echoOf cm name) s₁
    have hr' : ((awaitParamEcho cm name timeout).run (paramStore cm).link s₁).result = .ok res := hr
    have hs₂ := tracked_run hfresh (awaitParamEcho cm name timeout) s₁ hs₁
    rw [Outcome.andThen_ok hr', Outcome.after_result] at hres
    rw [Outcome.andThen_ok hr', Outcome.after_state] at hfinal
    cases res with
    | none => exact ih _ _ hs₂ hres hfinal
    | some echo =>
      by_cases hecho : echo.within verifyTol value = true
      · simp only [hecho, if_true, Program.run_pure, Except.ok.injEq] at hres hfinal
        subst hres
        exact ⟨hecho, awaitParamEcho_held s₁ hs₁ hset hr' hecho hfinal⟩
      · simp only [hecho, Bool.false_eq_true, if_false] at hres hfinal
        exact ih _ _ hs₂ hres hfinal

/-- A parameter of the list whose confirmation was held after it was first set. -/
def Achieved (cm : CaseMap) (ps : List (String × PyFloat)) (final : List Moment) (name : String)
    (x : PyFloat) : Prop :=
  ∃ value paramId, (name, value) ∈ ps ∧ encodeName cm name = .ok paramId ∧
    x.within verifyTol value = true ∧ HeldAfterSet name paramId x final

/-- Whenever one of these parameters is set for the first time in the run, no
message is queued that announces a value close to the requested one. -/
def NoStaleEchoes (cm : CaseMap) (ps : List (String × PyFloat)) (final : List Moment) : Prop :=
  ∀ name value paramId, (name, value) ∈ ps → encodeName cm name = .ok paramId →
    NoStaleEcho cm name value paramId final

theorem applyEach_held {maxRetries : ℕ} (ps : List (String × PyFloat)) (result : ApplyResult)
    (s : ParamLoop) (hfresh : NoStaleEchoes cm ps final)
    (hs : ∀ name value paramId, (name, value) ∈ ps → encodeName cm name = .ok paramId →
      Tracked cm name value paramId final [] s.state) {r : ApplyResult}
    (hres : ((applyEach cm conn true timeout maxRetries ps result).run
      (paramStore cm).link s).result = .ok r)
    (hfinal : ((applyEach cm conn true timeout maxRetries ps result).run
      (paramStore cm).link s).state.state.log <+: final) {name : String} {x : PyFloat}
    (hx : (name, x) ∈ r.applied) : (name, x) ∈ result.applied ∨ Achieved cm ps final name x := by
  induction ps generalizing result s with
  | nil =>
    simp only [applyEach, Program.run_pure, Except.ok.injEq] at hres
    exact .inl (hres ▸ hx)
  | cons p ps ih =>
    obtain ⟨n, v⟩ := p
    cases henc : encodeName cm n with
    | error e => simp [applyEach, henc] at hres
    | ok id =>
      have hmore : Achieved cm ps final name x → Achieved cm ((n, v) :: ps) final name x := by
        rintro ⟨value, paramId, hmem, h⟩
        exact ⟨value, paramId, by simp [hmem], h⟩
      simp only [applyEach, henc, Program.run_bind] at hres hfinal
      cases ho : ((applyOne cm conn n id v true timeout maxRetries .noResponse).run
          (paramStore cm).link s).result with
      | error e => simp [Outcome.andThen_error ho] at hres
      | ok outcome =>
        rw [Outcome.andThen_ok ho, Outcome.after_result] at hres
        rw [Outcome.andThen_ok ho, Outcome.after_state] at hfinal
        have hs' : ∀ name value paramId, (name, value) ∈ ps → encodeName cm name = .ok paramId →
            Tracked cm name value paramId final [] ((applyOne cm conn n id v true timeout maxRetries
              .noResponse).run (paramStore cm).link s).state.state :=
                fun name value paramId hm he =>
          tracked_run (hfresh name value paramId (by simp [hm]) he) _ s
            (hs name value paramId (by simp [hm]) he)
        have hfresh' : NoStaleEchoes cm ps final := fun name value paramId hm =>
          hfresh name value paramId (by simp [hm])
        cases outcome with
        | error e =>
          rcases ih _ _ hfresh' hs' hres hfinal with h | h
          · exact .inl h
          · exact .inr (hmore h)
        | ok y =>
          rcases ih _ _ hfresh' hs' hres hfinal with h | h
          · rcases List.mem_append.mp h with h | h
            · exact .inl h
            · obtain ⟨rfl, rfl⟩ : name = n ∧ x = y := by simpa using h
              have hheld := applyOne_held (hfresh name v id (by simp) henc) _ _ s
                (hs name v id (by simp) henc) ho ((log_mono cm _ _).trans hfinal)
              exact .inr ⟨v, id, by simp, henc, hheld⟩
          · exact .inr (hmore h)

/-- In every run in which no message close to the requested value is queued when
a parameter is first set, every parameter reported as applied was held, within
the tolerance, at some moment after it was first set. -/
theorem applyParams_held (cm : CaseMap) (conn : Conn) (params : ParamSet) (timeout : ℚ)
    (maxRetries : ℕ) (s : ParamLoop) (hlog : s.state.log = []) :
    let o := (applyParams cm conn params true timeout maxRetries).run (paramStore cm).link s
    NoStaleEchoes cm params.values o.state.state.log →
      ∀ r, o.result = .ok r → ∀ name x, (name, x) ∈ r.applied →
        Achieved cm params.values o.state.state.log name x := by
  intro o hfresh r hr name x hx
  have hmem := fun p => @ParamSet.mem_asSortedDict params p
  have hfresh' : NoStaleEchoes cm params.asSortedDict o.state.state.log :=
    fun name value paramId hm => hfresh name value paramId ((hmem _).mp hm)
  have htracked : ∀ name value paramId, Tracked cm name value paramId o.state.state.log []
      s.state := by
    rintro name value paramId - ⟨q, hq⟩
    simp [hlog] at hq
  rcases applyEach_held params.asSortedDict {} s hfresh' (fun name value paramId _ _ =>
    htracked name value paramId) hr List.prefix_rfl hx with h | ⟨value, paramId, hm, h⟩
  · simp at h
  · exact ⟨value, paramId, (hmem _).mp hm, h⟩

/-- One parameter to be set to five. -/
def fiveParams : ParamSet := ⟨[("X", .fin 5)], by simp⟩

/-- The autopilot holds three, and these messages are queued for the client. -/
def threeHeld (inbox : List Msg) (waiting : List ParamMove) : ParamLoop :=
  ⟨⟨fun n => if n = "X" then some (.fin 3) else none, inbox, [], [], [], id⟩,
    [⟨[], 0⟩, ⟨[], 1⟩, ⟨waiting, 0⟩]⟩

/-- The parameter is set, echoed and held. -/
theorem applyParams_held_five :
    let o := (applyParams .asciiOnly ⟨1, 1⟩ fiveParams true 2 3).run (paramStore .asciiOnly).link
      (threeHeld [] [.handle, .deliver])
    o.result = .ok { applied := [("X", .fin 5)] } ∧
      Achieved .asciiOnly fiveParams.values o.state.state.log "X" (.fin 5) := by
  intro o
  have hres : o.result = .ok { applied := [("X", .fin 5)] } := by decide +kernel
  refine ⟨hres, applyParams_held .asciiOnly ⟨1, 1⟩ fiveParams 2 3
    (threeHeld [] [.handle, .deliver]) rfl ?_ _ hres "X" (.fin 5) (by simp)⟩
  have hquiet : o.state.state.log.all (fun
      | .set _ queued => queued.isEmpty
      | .held _ => true) = true := by decide +kernel
  intro name value paramId _ _ before queued after hlog _ m hm
  have hmem : .set paramId queued ∈ before ++ .set paramId queued :: after := by simp
  rw [← hlog] at hmem
  have hq := List.all_eq_true.mp hquiet _ hmem
  simp [List.isEmpty_iff.mp hq] at hm

/-- A value announced earlier is still queued, and the `PARAM_SET` is lost: the
parameter is reported as applied while the autopilot holds three throughout. -/
theorem applyParams_stale_echo :
    let o := (applyParams .asciiOnly ⟨1, 1⟩ fiveParams true 2 3).run (paramStore .asciiOnly).link
      (threeHeld [.paramValue (.text "X") (.fin 5) 1] [.lose])
    o.result = .ok { applied := [("X", .fin 5)] } ∧
      ¬ ∃ x paramId, x.within verifyTol (.fin 5) = true ∧
        HeldAfterSet "X" paramId x o.state.state.log := by
  intro o
  refine ⟨by decide +kernel, ?_⟩
  have hthree : o.state.state.log.all (fun
      | .set _ _ => true
      | .held store => store "X" == some (.fin 3)) = true := by decide +kernel
  rintro ⟨x, paramId, hx, before, queued, after, hlog, -, store, hstore, heq⟩
  have hmem : .held store ∈ before ++ .set paramId queued :: after := by simp [hstore]
  rw [← hlog] at hmem
  have h : store "X" = some (.fin 3) := by simpa using List.all_eq_true.mp hthree _ hmem
  obtain rfl : x = .fin 3 := Option.some.inj (heq.symm.trans h)
  exact absurd hx (by decide +kernel)

end Run

end MowerRover.Params
