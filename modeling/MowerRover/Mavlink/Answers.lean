import MowerRover.Mavlink.MissionVerify

/-!
# What the requests of a read-back are answered with

The messages delivered between two sends of the client answer the first of
them. A download reads back a list exactly when the autopilot answers each of
its requests as that list asks: the first count of the type is the length of
the list, and the first item of the requested number agrees with the entry. A
download that fails stops at a request whose answer did not come.
-/

namespace MowerRover.Mavlink

open Effects

/-- The messages delivered before the client sends again. -/
def delivered (events : List LinkEvent) : List Msg :=
  takenMsgs (events.takeWhile fun e => e.sentMsg.isNone)

/-- The answers give what a read-back of these lists has to hear. -/
def RightAnswer (lists : ℕ → List MissionItem) (answers : List Msg) : Msg → Prop
  | .missionRequestList t => answers.findSome? (countOf t) = some (lists t).length
  | .missionRequestInt k t => ∃ exp got, (lists t)[k]? = some exp ∧
      answers.findSome? (itemOf t k) = some got ∧ ItemMatch exp got
  | _ => True

/-- Every request is answered from these lists before anything else is sent. -/
def AnsweredFrom (lists : ℕ → List MissionItem) (events : List LinkEvent) : Prop :=
  ∀ c m rest, .sent c m :: rest <:+ events → RightAnswer lists (delivered rest) m

variable {conn : Conn} {t : ℕ} {lists : ℕ → List MissionItem}

@[simp] theorem delivered_nil : delivered [] = [] := rfl

@[simp] theorem delivered_cons_sent (c : Conn) (m : Msg) (events : List LinkEvent) :
    delivered (.sent c m :: events) = [] := rfl

@[simp] theorem delivered_cons_took (m : Msg) (events : List LinkEvent) :
    delivered (.took m :: events) = m :: delivered events := rfl

@[simp] theorem delivered_cons_skipped (m : Msg) (events : List LinkEvent) :
    delivered (.skipped m :: events) = m :: delivered events := rfl

theorem delivered_append {a : List LinkEvent} (ha : sentMsgs a = []) (b : List LinkEvent) :
    delivered (a ++ b) = takenMsgs a ++ delivered b := by
  induction a with
  | nil => rfl
  | cons e a ih =>
    cases e with
    | sent c m => simp at ha
    | took m => simp [ih (by simpa using ha)]
    | skipped m => simp [ih (by simpa using ha)]

theorem delivered_of_quiet {a : List LinkEvent} (ha : sentMsgs a = []) :
    delivered a = takenMsgs a := by
  simpa using delivered_append ha []

@[simp] theorem answeredFrom_nil : AnsweredFrom lists [] := by
  intro c m rest hrest
  simp at hrest

@[simp] theorem answeredFrom_cons_sent {c : Conn} {m : Msg} {events : List LinkEvent} :
    AnsweredFrom lists (.sent c m :: events) ↔
      RightAnswer lists (delivered events) m ∧ AnsweredFrom lists events := by
  constructor
  · intro h
    exact ⟨h c m events (List.suffix_refl _), fun c' m' rest hrest => h c' m' rest
      (hrest.trans (List.suffix_cons _ _))⟩
  · rintro ⟨hm, h⟩ c' m' rest hrest
    rcases List.suffix_cons_iff.mp hrest with heq | hrest
    · simp only [List.cons.injEq, LinkEvent.sent.injEq] at heq
      obtain ⟨⟨-, rfl⟩, rfl⟩ := heq
      exact hm
    · exact h c' m' rest hrest

theorem answeredFrom_cons {e : LinkEvent} {events : List LinkEvent} (he : e.sentMsg = none) :
    AnsweredFrom lists (e :: events) ↔ AnsweredFrom lists events := by
  constructor
  · exact fun h c m rest hrest => h c m rest (hrest.trans (List.suffix_cons _ _))
  · intro h c m rest hrest
    rcases List.suffix_cons_iff.mp hrest with heq | hrest
    · simp only [List.cons.injEq] at heq
      rw [← heq.1] at he
      cases he
    · exact h c m rest hrest

@[simp] theorem answeredFrom_cons_took {m : Msg} {events : List LinkEvent} :
    AnsweredFrom lists (.took m :: events) ↔ AnsweredFrom lists events := answeredFrom_cons rfl

@[simp] theorem answeredFrom_cons_skipped {m : Msg} {events : List LinkEvent} :
    AnsweredFrom lists (.skipped m :: events) ↔ AnsweredFrom lists events := answeredFrom_cons rfl

theorem answeredFrom_append_quiet {a : List LinkEvent} (ha : sentMsgs a = [])
    (b : List LinkEvent) : AnsweredFrom lists (a ++ b) ↔ AnsweredFrom lists b := by
  induction a with
  | nil => rfl
  | cons e a ih =>
    cases e with
    | sent c m => simp at ha
    | took m => simp [ih (by simpa using ha)]
    | skipped m => simp [ih (by simpa using ha)]

/-- Two stretches of a run answer each for themselves when the second starts with a send. -/
theorem answeredFrom_append {a b : List LinkEvent} (hb : delivered b = []) :
    AnsweredFrom lists (a ++ b) ↔ AnsweredFrom lists a ∧ AnsweredFrom lists b := by
  have hdelivered : ∀ a : List LinkEvent, delivered (a ++ b) = delivered a := by
    intro a
    induction a with
    | nil => exact hb
    | cons e a ih =>
      cases e with
      | sent c m => rfl
      | took m => simp [ih]
      | skipped m => simp [ih]
  induction a with
  | nil => simp
  | cons e a ih =>
    cases e with
    | sent c m => simp [ih, hdelivered, and_assoc]
    | took m => simp [ih]
    | skipped m => simp [ih]

/-- What the lists ask of the answers to the messages of an upload is nothing. -/
theorem answeredFrom_of_writing {events : List LinkEvent}
    (h : ∀ m ∈ sentMsgs events, ∀ t, m ≠ .missionRequestList t ∧ ∀ k, m ≠ .missionRequestInt k t) :
    AnsweredFrom lists events := by
  induction events with
  | nil => simp
  | cons e events ih =>
    cases e with
    | sent c m =>
      simp only [sentMsgs_cons_sent, List.forall_mem_cons] at h
      refine answeredFrom_cons_sent.mpr ⟨?_, ih h.2⟩
      cases m with
      | missionRequestList t => exact absurd rfl (h.1 t).1
      | missionRequestInt k t => exact absurd rfl ((h.1 t).2 k)
      | _ => trivial
    | took m => exact answeredFrom_cons_took.mpr (ih h)
    | skipped m => exact answeredFrom_cons_skipped.mpr (ih h)

theorem Waited.findSome? {β : Type} {types : List MsgType} {accept : Msg → Option β}
    {res : Option β} {wait : List LinkEvent} (w : Waited types accept res wait)
    (hacc : ∀ m, m.getType ∉ types → accept m = none) (rest : List Msg) :
    (takenMsgs wait ++ rest).findSome? accept = res.or (rest.findSome? accept) := by
  have hrefused : ∀ {events : List LinkEvent}, Refused types accept events →
      (takenMsgs events).findSome? accept = none := by
    intro events r
    refine List.findSome?_eq_none_iff.mpr fun m hm => ?_
    rcases mem_takenMsgs.mp hm with hm | hm
    · exact (r.took m hm).2
    · exact hacc m (r.skipped m hm)
  cases w with
  | timeout r => simp [List.findSome?_append, hrefused r]
  | accepted r _ hm => simp [List.findSome?_append, hrefused r, hm]

theorem countOf_of_not_mem {m : Msg} (hm : m.getType ∉ [MsgType.missionCount]) :
    countOf t m = none := by
  cases m <;> simp_all [Msg.getType, countOf]

theorem itemOf_of_not_mem {k : ℕ} {m : Msg} (hm : m.getType ∉ [MsgType.missionItemInt]) :
    itemOf t k m = none := by
  cases m <;> simp_all [Msg.getType, itemOf]

/-- The items of a download were answered from the lists exactly when each agrees
with the entry of its number. -/
theorem ItemsReceived.answeredFrom_iff {k : ℕ} {got : List MissionItem}
    {events : List LinkEvent} (hr : ItemsReceived conn t k got events) :
    AnsweredFrom lists (events ++ [.sent conn (.missionAck 0 t)]) ↔
      ∀ i item, got[i]? = some item →
        ∃ exp, (lists t)[k + i]? = some exp ∧ ItemMatch exp item := by
  induction hr with
  | nil => simp [RightAnswer]
  | @cons k first got wait events w hr ih =>
    have hfirst : RightAnswer lists (delivered (wait ++ (events ++ [.sent conn (.missionAck 0 t)])))
        (.missionRequestInt k t) ↔ ∃ exp, (lists t)[k]? = some exp ∧ ItemMatch exp first := by
      rw [delivered_append w.nothingSent]
      simp [RightAnswer, w.findSome? fun _ => itemOf_of_not_mem]
    simp only [List.cons_append, List.append_assoc, answeredFrom_cons_sent, hfirst,
      answeredFrom_append_quiet w.nothingSent, ih]
    constructor
    · rintro ⟨hfirst, hrest⟩ i item hi
      cases i with
      | zero =>
        obtain rfl : first = item := by simpa using hi
        exact hfirst
      | succ i =>
        rw [← Nat.add_assoc, Nat.add_right_comm]
        exact hrest i item (by simpa using hi)
    · intro h
      refine ⟨h 0 first rfl, fun i item hi => ?_⟩
      rw [Nat.add_right_comm, Nat.add_assoc]
      exact h (i + 1) item (by simpa using hi)

theorem forall₂_iff_getElem? {α β : Type} {R : α → β → Prop} {a : List α} {b : List β} :
    List.Forall₂ R a b ↔ b.length = a.length ∧
      ∀ (i : ℕ) y, b[i]? = some y → ∃ x, a[i]? = some x ∧ R x y := by
  rw [List.forall₂_iff_get]
  constructor
  · rintro ⟨hlen, h⟩
    refine ⟨hlen.symm, fun i y hy => ?_⟩
    obtain ⟨hi, rfl⟩ := List.getElem?_eq_some_iff.mp hy
    exact ⟨a[i], by simp [hlen, hi], h i (hlen ▸ hi) hi⟩
  · rintro ⟨hlen, h⟩
    refine ⟨hlen.symm, fun i hi hi' => ?_⟩
    obtain ⟨x, hx, hxy⟩ := h i b[i] (by simp [hi'])
    obtain ⟨_, rfl⟩ := List.getElem?_eq_some_iff.mp hx
    exact hxy

/-- A completed download was answered from the lists exactly when what it gives
matches the list of its type. -/
theorem Downloaded.answeredFrom_iff {got : List MissionItem} {events : List LinkEvent}
    (hd : Downloaded conn t got events) :
    AnsweredFrom lists events ↔ List.Forall₂ ItemMatch (lists t) got := by
  cases hd with
  | @empty wait w =>
    have hcount := w.findSome? (fun _ => countOf_of_not_mem) []
    rw [List.append_nil, Option.some_or] at hcount
    have hwait : AnsweredFrom lists (wait ++ []) ↔ AnsweredFrom lists [] :=
      answeredFrom_append_quiet w.nothingSent []
    rw [List.append_nil] at hwait
    simp [delivered_of_quiet w.nothingSent, RightAnswer, hcount, hwait, eq_comm]
  | @items _ wait events hne w hr =>
    have hcount := w.findSome? (fun _ => countOf_of_not_mem)
      (delivered (events ++ [.sent conn (.missionAck 0 t)]))
    simp only [List.append_assoc, answeredFrom_cons_sent, RightAnswer,
      delivered_append w.nothingSent, hcount, Option.some_or, Option.some.injEq,
      answeredFrom_append_quiet w.nothingSent, hr.answeredFrom_iff, Nat.zero_add,
      forall₂_iff_getElem?]

/-- The client has asked for a list or an item, and nothing that came since answers it. -/
def Unanswered (t : ℕ) (events : List LinkEvent) : Prop :=
  ∃ c m rest, .sent c m :: rest <:+ events ∧ sentMsgs rest = [] ∧
    ((m = .missionRequestList t ∧ (takenMsgs rest).findSome? (countOf t) = none) ∨
      ∃ k, m = .missionRequestInt k t ∧ (takenMsgs rest).findSome? (itemOf t k) = none)

theorem Unanswered.not_answeredFrom {events : List LinkEvent} (h : Unanswered t events) :
    ¬ AnsweredFrom lists events := by
  obtain ⟨c, m, rest, hrest, hquiet, ⟨rfl, hnone⟩ | ⟨k, rfl, hnone⟩⟩ := h
  · intro ha
    have hcount := ha _ _ _ hrest
    rw [RightAnswer, delivered_of_quiet hquiet, hnone] at hcount
    cases hcount
  · intro ha
    obtain ⟨exp, got, -, hgot, -⟩ := ha _ _ _ hrest
    rw [delivered_of_quiet hquiet, hnone] at hgot
    cases hgot

theorem Unanswered.append {events : List LinkEvent} (h : Unanswered t events)
    (before : List LinkEvent) : Unanswered t (before ++ events) := by
  obtain ⟨c, m, rest, hrest, h⟩ := h
  exact ⟨c, m, rest, hrest.trans (List.suffix_append _ _), h⟩

theorem unanswered_of_waited {β : Type} {types : List MsgType} {accept : Msg → Option β}
    {wait : List LinkEvent} (w : Waited types accept none wait)
    (hacc : ∀ m, m.getType ∉ types → accept m = none) :
    (takenMsgs wait).findSome? accept = none := by
  simpa using w.findSome? hacc []

variable {σ : Type} {h : Handler linkSignature σ LinkEvent}

theorem requestItems_unanswered (hl : IsLink h) (seqs : List ℕ) (got : List (Option MissionItem))
    (s : σ) {x : PyError} (hx : ((requestItems conn t seqs got).run h s).result = .error x) :
    Unanswered t ((requestItems conn t seqs got).run h s).events := by
  induction seqs generalizing got s with
  | nil => simp [requestItems] at hx
  | cons k seqs ih =>
    obtain ⟨res, hres, w⟩ := waitWithin_waited hl 5 [.missionItemInt] (itemOf t k)
      (h (.send conn (.missionRequestInt k t)) s).2.1
    simp only [requestItems, Program.run_bind, run_send hl, Outcome.andThen_mk_ok,
      Outcome.andThen_ok hres, Outcome.after_after, Outcome.after_result,
      Outcome.after_events] at hx ⊢
    cases res with
    | none =>
      refine ⟨conn, _, _, by simp, w.nothingSent, .inr ⟨k, rfl, ?_⟩⟩
      exact unanswered_of_waited w fun _ => itemOf_of_not_mem
    | some item => exact (ih _ _ hx).append _

theorem downloadMission_unanswered (hl : IsLink h) (s : σ) {x : PyError}
    (hx : ((downloadMission conn t).run h s).result = .error x) :
    Unanswered t ((downloadMission conn t).run h s).events := by
  obtain ⟨res, hres, w⟩ := waitWithin_waited hl 10 [.missionCount] (countOf t)
    (h (.send conn (.missionRequestList t)) s).2.1
  simp only [downloadMission, Program.run_bind, run_send hl, Outcome.andThen_mk_ok,
    Outcome.andThen_ok hres, Outcome.after_after, Outcome.after_result,
    Outcome.after_events] at hx ⊢
  cases res with
  | none =>
    refine ⟨conn, _, _, by simp, w.nothingSent, .inl ⟨rfl, ?_⟩⟩
    exact unanswered_of_waited w fun _ => countOf_of_not_mem
  | some n =>
    by_cases hn : n = 0
    · simp [hn] at hx
    · simp only [if_neg hn, Program.run_bind] at hx ⊢
      cases hr : ((requestItems conn t (List.range n) (List.replicate n none)).run h
          ((waitWithin 10 [.missionCount] (countOf t)).run h
            (h (.send conn (.missionRequestList t)) s).2.1).state).result with
      | ok got => simp [Outcome.andThen_ok hr, run_send hl] at hx
      | error y =>
        rw [Outcome.andThen_error hr]
        exact (requestItems_unanswered hl _ _ _ hr).append _

theorem downloadMission_starts (hl : IsLink h) (conn : Conn) (t : ℕ) (s : σ) :
    ∃ rest, ((downloadMission conn t).run h s).events =
      .sent conn (.missionRequestList t) :: rest ∧
      ∀ m ∈ sentMsgs rest, m.getType ≠ .missionRequestList := by
  refine ⟨((receiveList conn t).run h (h (.send conn (.missionRequestList t)) s).2.1).events,
    ?_, ?_⟩
  · simp [downloadMission_eq, Program.run_bind, run_send hl]
  · exact sentMsgs_of_calls hl (calls_receiveList (by simp [Msg.getType]) (by simp [Msg.getType])) _

/-- A download was answered from the lists exactly when it was completed and
what it gives matches the list of its type. -/
theorem downloadMission_answeredFrom_iff (hl : IsLink h) (s : σ) :
    let d := (downloadMission conn t).run h s
    AnsweredFrom lists d.events ↔
      ∃ got, Downloaded conn t got d.events ∧ List.Forall₂ ItemMatch (lists t) got := by
  intro d
  constructor
  · intro ha
    rcases downloadMission_run hl conn t s with ⟨got, -, hd⟩ | ⟨message, herr, -⟩
    · exact ⟨got, hd, hd.answeredFrom_iff.mp ha⟩
    · exact absurd ha (downloadMission_unanswered hl s herr).not_answeredFrom
  · rintro ⟨got, hd, hmatch⟩
    exact hd.answeredFrom_iff.mpr hmatch

end MowerRover.Mavlink
