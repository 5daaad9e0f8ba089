import MowerRover.Params.ParamSet
import Mathlib.Data.List.TakeWhile

/-!
# Fetching the parameters

`fetch_params` asks for the whole list and collects what comes, until as many
different names have arrived as the first message announced, nothing has come
for the quiet window, or the time is over. A list that was cut short is
returned like a complete one.
-/

namespace MowerRover.Params

open Effects Numeric Mavlink

def quietWindow : ℚ := 3 / 2

def fetchTimeout : ℚ := 60

variable (cm : CaseMap)

/-- The loop with the rounds that are left before the deadline, and the empty
polls that fit in what is left of the quiet window. -/
def fetchLoop : (rounds quiet : ℕ) → List (String × PyFloat) → Option ℕ →
    LinkM (List (String × PyFloat))
  | 0, _, collected, _ => pure collected
  | rounds + 1, quiet, collected, expected => do
    match ← recvMatch [.paramValue] with
    | some (.paramValue paramId value paramCount) =>
      let collected := setItem collected (decodeName cm paramId) value
      let quiet ← polls quietWindow
      let expected := expected.getD paramCount
      if expected ≠ 0 ∧ expected ≤ collected.length then pure collected
      else fetchLoop rounds quiet collected (some expected)
    -- `recv_match` gives nothing but what it was asked for
    | _ =>
      if collected ≠ [] ∧ quiet = 0 then pure collected
      else fetchLoop rounds (quiet - 1) collected expected

def requestList : Msg := .other "PARAM_REQUEST_LIST"

def fetchParams (conn : Conn) : LinkM ParamSet := do
  send conn requestList
  let rounds ← polls fetchTimeout
  let collected ← fetchLoop cm rounds 0 [] none
  Program.ofExcept (ParamSet.fromPairs cm collected)

theorem calls_fetchLoop (kind : Msg → Prop) (rounds quiet : ℕ)
    (collected : List (String × PyFloat)) (expected : Option ℕ) :
    (fetchLoop cm rounds quiet collected expected).Calls (SendsOnly kind) := by
  induction rounds generalizing quiet collected expected with
  | zero => trivial
  | succ rounds ih =>
    unfold fetchLoop
    apply (calls_recvMatch kind [.paramValue]).bind
    intro msg
    have hempty : (if collected ≠ [] ∧ quiet = 0 then pure collected
        else fetchLoop cm rounds (quiet - 1) collected expected : LinkM _).Calls
          (SendsOnly kind) := by
      split_ifs
      · trivial
      · exact ih _ _ _
    cases msg with
    | none => exact hempty
    | some m =>
      cases m with
      | paramValue paramId value paramCount =>
        apply (calls_polls kind quietWindow).bind
        intro quiet
        dsimp only
        split_ifs
        · trivial
        · exact ih _ _ _
      | _ => exact hempty

theorem calls_fetchParams (conn : Conn) :
    (fetchParams cm conn).Calls (SendsOnly (· = requestList)) := by
  have hsend : (send conn requestList).Calls (SendsOnly (· = requestList)) := calls_send rfl
  apply hsend.bind
  intro _
  apply (calls_polls _ _).bind
  intro rounds
  apply (calls_fetchLoop cm _ rounds 0 [] none).bind
  intro collected
  cases ParamSet.fromPairs cm collected <;> trivial

section Collected

variable {σ : Type} {h : Handler linkSignature σ LinkEvent}

/-- A message with this value under this name was taken. -/
def Announced (name : String) (value : PyFloat) (events : List LinkEvent) : Prop :=
  ∃ paramId paramCount, .took (.paramValue paramId value paramCount) ∈ events ∧
    decodeName cm paramId = name

/-- The run ends, with what was there and what was announced. -/
def Gathers (collected : List (String × PyFloat))
    (o : Outcome PyError (List (String × PyFloat)) σ LinkEvent) : Prop :=
  ∃ out, o.result = .ok out ∧ ∀ p ∈ out, p ∈ collected ∨ Announced cm p.1 p.2 o.events

variable {cm}

theorem Announced.mono {name : String} {value : PyFloat} {events events' : List LinkEvent}
    (ha : Announced cm name value events) (hsub : events ⊆ events') :
    Announced cm name value events' := by
  obtain ⟨paramId, paramCount, hmem, hname⟩ := ha
  exact ⟨paramId, paramCount, hsub hmem, hname⟩

theorem Gathers.after {collected : List (String × PyFloat)} {events : List LinkEvent}
    {o : Outcome PyError (List (String × PyFloat)) σ LinkEvent} (ho : Gathers cm collected o) :
    Gathers cm collected (o.after events) := by
  obtain ⟨out, hout, hmem⟩ := ho
  refine ⟨out, hout, fun p hp => (hmem p hp).imp_right fun ha => ha.mono ?_⟩
  exact List.subset_append_right events o.events

theorem fetchLoop_run (cm : CaseMap) (hl : IsLink h) (rounds quiet : ℕ)
    (collected : List (String × PyFloat)) (expected : Option ℕ) (s : σ) :
    Gathers cm collected ((fetchLoop cm rounds quiet collected expected).run h s) := by
  induction rounds generalizing quiet collected expected s with
  | zero => exact ⟨collected, rfl, fun p hp => .inl hp⟩
  | succ rounds ih =>
    have hstop : ∀ (c : Prop) [Decidable c] (quiet : ℕ) (collected : List (String × PyFloat))
        (expected : Option ℕ) (s : σ), Gathers cm collected
          ((if c then pure collected else fetchLoop cm rounds quiet collected expected :
            LinkM _).run h s) := by
      intro c _ quiet collected expected s
      split_ifs
      · exact ⟨collected, rfl, fun p hp => .inl hp⟩
      · exact ih _ _ _ _
    unfold fetchLoop
    rw [Program.run_bind, run_recvMatch, Outcome.andThen_mk_ok]
    obtain ⟨skipped, -, hev, -⟩ := hl.recvMatch [.paramValue] s
    cases hm : (h (.recvMatch [.paramValue]) s).1 with
    | none => exact (hstop _ _ _ _ _).after
    | some m =>
      cases m with
      | paramValue paramId value paramCount =>
        simp only [Program.run_bind, run_polls hl, Outcome.andThen_mk_ok, Outcome.after_nil]
        obtain ⟨out, hout, hmem⟩ := hstop (expected.getD paramCount ≠ 0 ∧ expected.getD paramCount ≤
          (setItem collected (decodeName cm paramId) value).length) _ _
            (some (expected.getD paramCount)) _
        refine ⟨out, hout, fun p hp => ?_⟩
        rw [hm] at hev
        rcases hmem p hp with hin | ha
        · rcases mem_setItem hin with rfl | hin
          · exact .inr ⟨paramId, paramCount, by simp [hev], rfl⟩
          · exact .inl hin
        · exact .inr (ha.mono (List.subset_append_right _ _))
      | _ => exact (hstop _ _ _ _ _).after

/-- Every value that `fetch_params` returns was announced. -/
theorem fetchParams_lookup (hl : IsLink h) {conn : Conn} {s : σ} {fetched : ParamSet}
    (hr : ((fetchParams cm conn).run h s).result = .ok fetched) {name : String} {v : PyFloat}
    (hv : fetched.lookup name = some v) :
    ∃ n, normalizeName cm n = .ok name ∧
      Announced cm n v ((fetchParams cm conn).run h s).events := by
  unfold fetchParams at hr ⊢
  simp only [Program.run_bind, run_send hl, run_polls hl, Outcome.andThen_mk_ok,
    Outcome.after_result, Outcome.after_events, Outcome.after_nil] at hr ⊢
  generalize hs' : (h (.polls fetchTimeout) (h (.send conn requestList) s).2.1) = answer at hr ⊢
  obtain ⟨out, hout, hmem⟩ := fetchLoop_run cm hl answer.1 0 [] none answer.2.1
  rw [Outcome.andThen_ok hout] at hr ⊢
  cases hset : ParamSet.fromPairs cm out with
  | error x => simp [hset, Program.ofExcept, Program.run] at hr
  | ok params =>
    obtain rfl : params = fetched := by simpa [hset, Program.ofExcept, Program.run] using hr
    have hfrom := ParamSet.insertPairs_lookup hset hv
    rcases hfrom with ⟨p, hp, rfl, hname⟩ | hempty
    · refine ⟨p.1, hname, ?_⟩
      have ha := (hmem p hp).resolve_left (by simp)
      exact ha.mono (List.subset_append_of_subset_right _ (List.subset_append_left _ _))
    · simp [ParamSet.lookup, ParamSet.empty] at hempty

end Collected

section Stream

variable {cm}

/-- The list as an autopilot sends it, without a gap. -/
def announcements (params : List (String × PyFloat)) (paramCount : ℕ) : List Msg :=
  params.map fun p => .paramValue (.text p.1) p.2 paramCount

/-- Rounds in which nothing else arrives. -/
def stillRounds : ℕ → List (Turn Msg)
  | 0 => []
  | n + 1 => ⟨[], 0⟩ :: ⟨[], 0⟩ :: stillRounds n

/-- The turns of a fetch with time enough for that many messages. -/
def streamTurns (n : ℕ) : List (Turn Msg) := ⟨[], 0⟩ :: ⟨[], n⟩ :: stillRounds n

theorem decodeName_of_plain (cm : CaseMap) {name : String} (h : isPlain name = true) :
    decodeName cm (.text name) = name := by
  simp only [isPlain, Bool.and_eq_true] at h
  have hnul : ∀ c ∈ name.toList, decide (c ≠ Char.ofNat 0) = true := by
    intro c hc
    have hplain := plainChar_toNat (List.all_eq_true.mp h.2 c hc)
    rw [decide_eq_true_eq]
    rintro rfl
    simp at hplain
  rw [decodeName, List.takeWhile_eq_self_iff.mpr hnul, pyStrip_of_plain h.2, upper_of_plain cm h.2,
    String.ofList_toList]

theorem link_recvMatch_head {types : List MsgType} {m : Msg} (hm : m.getType ∈ types)
    (inbox : List Msg) (budget : ℕ) (turns : List (Turn Msg)) :
    link (.recvMatch types) ⟨m :: inbox, ⟨[], budget⟩ :: turns⟩ =
      (some m, ⟨inbox, turns⟩, [.took m]) := by
  simp [link, Peer.link, schedule, applyMoves, Peer.answer, anyPeer, takeMatch, hm]

/-- The loop takes the rest of a complete list and stops at its end. -/
theorem fetchLoop_stream (cm : CaseMap) (rest done : List (String × PyFloat)) (hne : rest ≠ [])
    (hplain : ∀ p ∈ rest, isPlain p.1 = true) (hnodup : ((done ++ rest).map Prod.fst).Nodup)
    (quiet : ℕ) {expected : Option ℕ}
    (hexpected : expected.getD (done ++ rest).length = (done ++ rest).length)
    (more : List (Turn Msg)) :
    ∃ events, (fetchLoop cm rest.length quiet done expected).run link
      ⟨announcements rest (done ++ rest).length, stillRounds rest.length ++ more⟩ =
      ⟨.ok (done ++ rest), ⟨[], more⟩, events⟩ := by
  induction rest generalizing done quiet expected with
  | nil => exact absurd rfl hne
  | cons p rest ih =>
    obtain ⟨name, value⟩ := p
    have hnew : name ∉ done.map Prod.fst := by
      intro hmem
      rw [List.map_append, List.nodup_append] at hnodup
      exact hnodup.2.2 name hmem name (by simp) rfl
    have hset : setItem done (decodeName cm (.text name)) value = done ++ [(name, value)] := by
      rw [decodeName_of_plain cm (hplain _ List.mem_cons_self), setItem_of_not_mem hnew]
    rw [List.append_cons] at hnodup hexpected ⊢
    generalize htotal : (done ++ [(name, value)] ++ rest).length = total at hexpected ⊢
    have hpolls : (polls quietWindow).run link
        ⟨announcements rest total, ⟨[], 0⟩ :: (stillRounds rest.length ++ more)⟩ =
          ⟨.ok 0, ⟨announcements rest total, stillRounds rest.length ++ more⟩, []⟩ := rfl
    rw [announcements] at hpolls
    rw [List.length_cons, fetchLoop, Program.run_bind, run_recvMatch, announcements, List.map_cons,
      stillRounds, List.cons_append, List.cons_append,
      link_recvMatch_head (by simp [Msg.getType]), Outcome.andThen_mk_ok]
    simp only [hset, hexpected, Program.run_bind, hpolls, Outcome.andThen_mk_ok, Outcome.after_nil]
    cases rest with
    | nil =>
      have hlast : total ≠ 0 ∧ total ≤ (done ++ [(name, value)]).length := by simp [← htotal]
      rw [if_pos hlast]
      exact ⟨_, by simp [Outcome.after, stillRounds]; rfl⟩
    | cons q rest =>
      have hrest : ∀ p ∈ q :: rest, isPlain p.1 = true := fun p hp =>
        hplain p (List.mem_cons_of_mem _ hp)
      have hsome : (some total).getD (done ++ [(name, value)] ++ q :: rest).length =
          (done ++ [(name, value)] ++ q :: rest).length := htotal.symm
      obtain ⟨events, hrun⟩ := ih (done ++ [(name, value)]) (by simp) hrest hnodup 0 hsome
      rw [htotal, announcements] at hrun
      rw [if_neg (by simp [← htotal]), hrun]
      exact ⟨_, rfl⟩

/-- A complete list is returned whole. -/
theorem fetchParams_stream (cm : CaseMap) (conn : Conn) {params : ParamSet} (hplain : params.Plain)
    (hne : params.values ≠ []) (more : List (Turn Msg)) :
    ∃ events, (fetchParams cm conn).run link
      ⟨announcements params.values params.values.length,
        streamTurns params.values.length ++ more⟩ = ⟨.ok params, ⟨[], more⟩, events⟩ := by
  have hpairs : ∀ p ∈ params.values, isPlain p.1 = true := by
    intro p hp
    exact hplain p.1 (List.mem_map.mpr ⟨p, hp, rfl⟩)
  have hnone : (none : Option ℕ).getD ([] ++ params.values).length = ([] ++ params.values).length :=
    rfl
  obtain ⟨events, hloop⟩ := fetchLoop_stream cm params.values [] hne hpairs params.nodup 0
    hnone more
  rw [List.nil_append] at hloop
  have hsend : (send conn requestList).run link
      ⟨announcements params.values params.values.length,
        streamTurns params.values.length ++ more⟩ =
      ⟨.ok (), ⟨announcements params.values params.values.length,
        ⟨[], params.values.length⟩ :: stillRounds params.values.length ++ more⟩,
        [.sent conn requestList]⟩ := rfl
  have hpolls : (polls fetchTimeout).run link
      ⟨announcements params.values params.values.length,
        ⟨[], params.values.length⟩ :: stillRounds params.values.length ++ more⟩ =
      ⟨.ok params.values.length, ⟨announcements params.values params.values.length,
        stillRounds params.values.length ++ more⟩, []⟩ := rfl
  refine ⟨.sent conn requestList :: events, ?_⟩
  simp only [fetchParams, Program.run_bind, hsend, hpolls, hloop, Outcome.andThen_mk_ok,
    ParamSet.fromPairs_of_plain hpairs params.nodup, Program.run_ofExcept]
  simp [Outcome.after]

end Stream
end MowerRover.Params
