import MowerRover.Mavlink.Link
import MowerRover.Mavlink.Mission

/-!
# What an upload has seen and answered

The events of `uploadMission` against any link. The request loop answers every
request it takes and leaves at the first acknowledgement, whatever mission type
that one carries and however many items are still to be sent. The second loop
asks for acknowledgements only, so requests that reach it are thrown away.
Both habits break the upload's contract; the exact conditions on the incoming
messages under which it is kept are proved here.
-/

namespace MowerRover.Mavlink

open Effects

def requestSeq : Msg → Option ℕ
  | .missionRequestInt seq _ | .missionRequest seq _ => some seq
  | _ => none

theorem requestSeq_of_not_mem {m : Msg} (hm : m.getType ∉ uploadTypes) : requestSeq m = none := by
  cases m <;> simp_all [uploadTypes, Msg.getType, requestSeq]

/-- The events of the request loop, from the set of items sent so far to its result. -/
inductive RequestTrace (conn : Conn) (items : List MissionItem) :
    Finset ℕ → Except PyError Bool → List LinkEvent → Prop
  | allSent {sent} : items.length ≤ sent.card → RequestTrace conn items sent (.ok false) []
  | timeout {sent x} : RequestTrace conn items sent (.error x) []
  | skip {sent res m events} : sent.card < items.length → m.getType ∉ uploadTypes →
      RequestTrace conn items sent res events →
      RequestTrace conn items sent res (.skipped m :: events)
  | accepted {sent ty} : sent.card < items.length →
      RequestTrace conn items sent (.ok true) [.took (.missionAck 0 ty)]
  | rejected {sent x type ty} : sent.card < items.length → type ≠ 0 →
      RequestTrace conn items sent (.error x) [.took (.missionAck type ty)]
  | answered {sent res m k events} (hk : k < items.length) : sent.card < items.length →
      requestSeq m = some k → RequestTrace conn items (insert k sent) res events →
      RequestTrace conn items sent res
        (.took m :: .sent conn (.missionItemInt items[k]) :: events)
  | outOfRange {sent x m k} : sent.card < items.length → requestSeq m = some k →
      items.length ≤ k → RequestTrace conn items sent (.error x) [.took m]

variable {σ : Type} {h : Handler linkSignature σ LinkEvent} {conn : Conn}
  {items : List MissionItem} {t : ℕ}

theorem RequestTrace.skips {sent : Finset ℕ} {res : Except PyError Bool}
    {events : List LinkEvent} (hc : sent.card < items.length) {ms : List Msg}
    (hms : ∀ m ∈ ms, m.getType ∉ uploadTypes) (tr : RequestTrace conn items sent res events) :
    RequestTrace conn items sent res (ms.map .skipped ++ events) := by
  induction ms with
  | nil => exact tr
  | cons m ms ih =>
    exact .skip hc (hms m (by simp)) (ih fun m' hm' => hms m' (by simp [hm']))

theorem answerRequest_trace (hl : IsLink h) {sent : Finset ℕ} {m : Msg} {k : ℕ}
    (hc : sent.card < items.length) (hm : requestSeq m = some k) {loop : LinkM Bool} {s : σ}
    (ih : ∀ s, RequestTrace conn items (insert k sent) (loop.run h s).result
      (loop.run h s).events) :
    RequestTrace conn items sent ((answerRequest conn items k loop).run h s).result
      (.took m :: ((answerRequest conn items k loop).run h s).events) := by
  by_cases hk : k < items.length
  · simpa [answerRequest, hk, Program.run_bind, run_send hl] using .answered hk hc hm (ih _)
  · simpa [answerRequest, hk] using .outOfRange hc hm (not_lt.mp hk)

theorem requestLoop_trace (hl : IsLink h) (conn : Conn) (items : List MissionItem) (n : ℕ)
    (sent : Finset ℕ) (s : σ) :
    RequestTrace conn items sent ((requestLoop conn items n sent).run h s).result
      ((requestLoop conn items n sent).run h s).events := by
  induction n generalizing sent s with
  | zero =>
    by_cases hc : sent.card < items.length
    · simpa [requestLoop, hc] using .timeout
    · simpa [requestLoop, hc] using .allSent (not_lt.mp hc)
  | succ n ih =>
    by_cases hc : sent.card < items.length
    · obtain ⟨skipped, hs, hev, hres⟩ := hl.recvMatch uploadTypes s
      simp only [requestLoop, if_pos hc, Program.run_bind, run_recvMatch, Outcome.andThen_mk_ok,
        Outcome.after_result, Outcome.after_events]
      rw [hev, List.append_assoc]
      refine RequestTrace.skips hc hs ?_
      cases hm : (h (.recvMatch uploadTypes) s).1 with
      | none => exact ih sent _
      | some m =>
        cases m with
        | missionRequestInt seq ty => exact answerRequest_trace hl hc rfl (ih (insert seq sent))
        | missionRequest seq ty => exact answerRequest_trace hl hc rfl (ih (insert seq sent))
        | missionAck type ty =>
          by_cases htype : type = 0
          · subst htype
            simpa using .accepted hc
          · simpa [htype] using .rejected hc htype
        | _ => exact absurd (hres _ hm) (by simp [uploadTypes, Msg.getType])
    · simpa [requestLoop, hc] using .allSent (not_lt.mp hc)

/-- The events of an upload of at least one item. -/
inductive UploadTrace (conn : Conn) (items : List MissionItem) (t : ℕ) :
    Except PyError Unit → List LinkEvent → Prop
  | early {events} : RequestTrace conn items ∅ (.ok true) events →
      UploadTrace conn items t (.ok ()) (.sent conn (.missionCount items.length t) :: events)
  | late {events wait} : RequestTrace conn items ∅ (.ok false) events →
      Waited [.missionAck] ackType (some 0) wait →
      UploadTrace conn items t (.ok ())
        (.sent conn (.missionCount items.length t) :: (events ++ wait))
  | failed {x events} : RequestTrace conn items ∅ (.error x) events →
      UploadTrace conn items t (.error x) (.sent conn (.missionCount items.length t) :: events)
  | unconfirmed {x events wait res} : RequestTrace conn items ∅ (.ok false) events →
      Waited [.missionAck] ackType res wait → res ≠ some 0 →
      UploadTrace conn items t (.error x)
        (.sent conn (.missionCount items.length t) :: (events ++ wait))

theorem uploadMission_trace (hl : IsLink h) (conn : Conn) (hne : items ≠ []) (t : ℕ) (s : σ) :
    UploadTrace conn items t ((uploadMission conn items t).run h s).result
      ((uploadMission conn items t).run h s).events := by
  simp only [uploadMission, if_neg hne, Program.run_bind, run_send hl, run_polls hl,
    Outcome.andThen_mk_ok, Outcome.after_after, List.append_nil, Outcome.after_result,
    Outcome.after_events]
  generalize (h (.send conn (.missionCount items.length t)) s).2.1 = s₁
  have tr := requestLoop_trace hl conn items (h (.polls 10) s₁).1 ∅ (h (.polls 10) s₁).2.1
  generalize (requestLoop conn items (h (.polls 10) s₁).1 ∅).run h (h (.polls 10) s₁).2.1 = o at tr
  cases hr : o.result with
  | error x =>
    rw [hr] at tr
    simpa [Outcome.andThen_error hr] using .failed tr
  | ok ended =>
    rw [hr] at tr
    rw [Outcome.andThen_ok hr]
    cases ended with
    | true => simpa using .early tr
    | false =>
      obtain ⟨res, hres, w⟩ := waitWithin_waited hl 5 [.missionAck] ackType o.state
      simp only [Bool.false_eq_true, if_false, Program.run_bind, Outcome.andThen_ok hres,
        Outcome.after_result, Outcome.after_events]
      cases res with
      | none => simpa using UploadTrace.unconfirmed tr w (by simp)
      | some type =>
        by_cases htype : type = 0
        · subst htype
          simpa using UploadTrace.late tr w
        · simpa [htype] using UploadTrace.unconfirmed tr w (by simpa using htype)

/-- The sequence numbers requested by some of these messages. -/
def requested (ms : List Msg) : Finset ℕ := (ms.filterMap requestSeq).toFinset

@[simp] theorem mem_requested {i : ℕ} {ms : List Msg} :
    i ∈ requested ms ↔ ∃ m ∈ ms, requestSeq m = some i := by simp [requested]

@[simp] theorem requested_nil : requested [] = ∅ := rfl

theorem requested_cons_of_none {m : Msg} (hm : requestSeq m = none) (ms : List Msg) :
    requested (m :: ms) = requested ms := by simp [requested, hm]

theorem requested_cons_of_some {m : Msg} {k : ℕ} (hm : requestSeq m = some k) (ms : List Msg) :
    requested (m :: ms) = insert k (requested ms) := by simp [requested, hm]

/-- Every request taken from the link whose number is in range is answered at
once with the item of that number. -/
def Answered (conn : Conn) (items : List MissionItem) (events : List LinkEvent) : Prop :=
  ∀ e rest m k (hk : k < items.length), e :: rest <:+ events → e.takenMsg = some m →
    requestSeq m = some k → rest.head? = some (.sent conn (.missionItemInt items[k]))

theorem RequestTrace.answered_all {sent : Finset ℕ} {res : Except PyError Bool}
    {events : List LinkEvent} (tr : RequestTrace conn items sent res events) :
    Answered conn items events := by
  intro e rest m k hk hsuf htaken hreq
  induction tr with
  | allSent _ | timeout => simp at hsuf
  | skip _ hm _ ih =>
    rcases List.suffix_cons_iff.mp hsuf with heq | hsuf
    · obtain ⟨rfl, rfl⟩ := List.cons.inj heq
      obtain rfl := Option.some.inj htaken
      simp [requestSeq_of_not_mem hm] at hreq
    · exact ih hsuf
  | accepted _ | rejected _ _ =>
    obtain ⟨rfl, -⟩ : e = _ ∧ rest = [] := by simpa [List.suffix_cons_iff] using hsuf
    obtain rfl := Option.some.inj htaken
    simp [requestSeq] at hreq
  | answered hk' _ hm _ ih =>
    rcases List.suffix_cons_iff.mp hsuf with heq | hsuf
    · obtain ⟨rfl, rfl⟩ := List.cons.inj heq
      obtain rfl := Option.some.inj htaken
      obtain rfl := Option.some.inj (hm.symm.trans hreq)
      rfl
    · rcases List.suffix_cons_iff.mp hsuf with heq | hsuf
      · obtain ⟨rfl, rfl⟩ := List.cons.inj heq
        simp [LinkEvent.takenMsg] at htaken
      · exact ih hsuf
  | outOfRange _ hm hk' =>
    obtain ⟨rfl, -⟩ : e = _ ∧ rest = [] := by simpa [List.suffix_cons_iff] using hsuf
    obtain rfl := Option.some.inj htaken
    obtain rfl := Option.some.inj (hm.symm.trans hreq)
    omega

/-- As long as the loop takes messages, some item has not been requested. -/
theorem RequestTrace.pending {sent : Finset ℕ} {res : Except PyError Bool}
    {events : List LinkEvent} (tr : RequestTrace conn items sent res events)
    {before rest : List Msg} {m : Msg} (heq : takenMsgs events = before ++ m :: rest) :
    (sent ∪ requested before).card < items.length := by
  induction tr generalizing before with
  | allSent _ | timeout => simp at heq
  | skip hc hm _ ih =>
    cases before with
    | nil => simpa using hc
    | cons m' before =>
      simp only [takenMsgs_cons_skipped, List.cons_append, List.cons.injEq] at heq
      rw [← heq.1, requested_cons_of_none (requestSeq_of_not_mem hm)]
      exact ih heq.2
  | accepted hc | rejected hc _ | outOfRange hc _ _ =>
    cases before with
    | nil => simpa using hc
    | cons m' before => simp at heq
  | answered _ hc hm _ ih =>
    cases before with
    | nil => simpa using hc
    | cons m' before =>
      simp only [takenMsgs_cons_took, takenMsgs_cons_sent, List.cons_append,
        List.cons.injEq] at heq
      rw [← heq.1, requested_cons_of_some hm, Finset.union_insert, ← Finset.insert_union]
      exact ih heq.2

/-- When the loop has run to its end, every item has been requested. -/
theorem RequestTrace.complete {sent : Finset ℕ} {events : List LinkEvent}
    (tr : RequestTrace conn items sent (.ok false) events)
    (hsent : sent ⊆ Finset.range items.length) {i : ℕ} (hi : i < items.length) :
    i ∈ sent ∪ requested (takenMsgs events) := by
  generalize hres : (Except.ok false : Except PyError Bool) = res at tr
  induction tr with
  | allSent hc =>
    have hall : _ = Finset.range items.length :=
      Finset.eq_of_subset_of_card_le hsent (by simpa using hc)
    simp [hall, hi]
  | timeout | accepted _ | rejected _ _ | outOfRange _ _ _ => simp at hres
  | skip _ hm _ ih =>
    rw [takenMsgs_cons_skipped, requested_cons_of_none (requestSeq_of_not_mem hm)]
    exact ih hsent hres
  | answered hk _ hm _ ih =>
    rw [takenMsgs_cons_took, takenMsgs_cons_sent, requested_cons_of_some hm,
      Finset.union_insert, ← Finset.insert_union]
    exact ih (Finset.insert_subset (by simpa using hk) hsent) hres

def NoAck (ms : List Msg) : Prop := ∀ m ∈ ms, m.getType ≠ .missionAck

theorem getType_ne_ack_of_not_mem {m : Msg} (hm : m.getType ∉ uploadTypes) :
    m.getType ≠ .missionAck := fun h => hm (by simp [h, uploadTypes])

theorem getType_ne_ack_of_request {m : Msg} {k : ℕ} (hm : requestSeq m = some k) :
    m.getType ≠ .missionAck := by
  cases m <;> simp_all [requestSeq, Msg.getType]

/-- An acknowledgement ends the loop, and an accepting one makes it succeed. -/
theorem RequestTrace.ackEnd {sent : Finset ℕ} {res : Except PyError Bool}
    {events : List LinkEvent} (tr : RequestTrace conn items sent res events) :
    (NoAck (takenMsgs events) ∧ res ≠ .ok true) ∨
    ∃ before type ty, events = before ++ [.took (.missionAck type ty)] ∧
      NoAck (takenMsgs before) ∧ if type = 0 then res = .ok true else ∃ x, res = .error x := by
  induction tr with
  | allSent _ | timeout => exact .inl ⟨by simp [NoAck], by simp⟩
  | skip _ hm _ ih =>
    rcases ih with ⟨hno, hres⟩ | ⟨before, type, ty, rfl, hno, hres⟩
    · exact .inl ⟨by simpa [NoAck, getType_ne_ack_of_not_mem hm] using hno, hres⟩
    · exact .inr ⟨_ :: before, type, ty, rfl,
        by simpa [NoAck, getType_ne_ack_of_not_mem hm] using hno, hres⟩
  | @accepted _ ty _ => exact .inr ⟨[], 0, ty, rfl, by simp [NoAck], by simp⟩
  | @rejected _ x type ty _ htype =>
      exact .inr ⟨[], type, ty, rfl, by simp [NoAck], by simp [htype]⟩
  | answered _ _ hm _ ih =>
    rcases ih with ⟨hno, hres⟩ | ⟨before, type, ty, rfl, hno, hres⟩
    · exact .inl ⟨by simpa [NoAck, getType_ne_ack_of_request hm] using hno, hres⟩
    · exact .inr ⟨_ :: _ :: before, type, ty, rfl,
        by simpa [NoAck, getType_ne_ack_of_request hm] using hno, hres⟩
  | outOfRange _ hm _ => exact .inl ⟨by simpa [NoAck] using getType_ne_ack_of_request hm, by simp⟩

/-- Some of these messages requests the item. -/
def ItemRequested (items : List MissionItem) (item : MissionItem) (ms : List Msg) : Prop :=
  ∃ m ∈ ms, ∃ k, requestSeq m = some k ∧ items[k]? = some item

theorem RequestTrace.sent_iff {sent : Finset ℕ} {res : Except PyError Bool}
    {events : List LinkEvent} (tr : RequestTrace conn items sent res events)
    (item : MissionItem) :
    .sent conn (.missionItemInt item) ∈ events ↔
      ItemRequested items item (takenMsgs events) := by
  induction tr with
  | allSent _ | timeout => simp [ItemRequested]
  | skip _ hm _ ih => simpa [ItemRequested, requestSeq_of_not_mem hm] using ih
  | accepted _ | rejected _ _ => simp [ItemRequested, requestSeq]
  | answered hk _ hm _ ih =>
    simp [ItemRequested, hm, hk, eq_comm] at ih ⊢
    rw [ih]
  | outOfRange _ hm hk => simp [ItemRequested, hm, hk]

/-- The wait for the last acknowledgement takes nothing but that acknowledgement. -/
theorem Waited.finalAck {res : Option ℕ} {wait : List LinkEvent}
    (w : Waited [.missionAck] ackType res wait) :
    (res = none ∧ NoAck (takenMsgs wait)) ∨ ∃ before type ty, res = some type ∧
      wait = before ++ [.took (.missionAck type ty)] ∧ NoAck (takenMsgs before) := by
  have hquiet : ∀ {ev : List LinkEvent}, Refused [.missionAck] ackType ev →
      NoAck (takenMsgs ev) := by
    intro ev r m hm
    rcases mem_takenMsgs.mp hm with hm | hm
    · obtain ⟨htype, hacc⟩ := r.took m hm
      cases m <;> simp_all [Msg.getType, ackType]
    · simpa using r.skipped m hm
  cases w with
  | timeout r => exact .inl ⟨rfl, hquiet r⟩
  | @accepted before m type r htype hacc =>
    cases m with
    | missionAck type' ty =>
      obtain rfl : type' = type := by simpa [ackType] using hacc
      exact .inr ⟨before, type', ty, rfl, rfl, hquiet r⟩
    | _ => simp [ackType] at hacc

theorem NoAck.not_mem {ms : List Msg} (h : NoAck ms) (type ty : ℕ) :
    .missionAck type ty ∉ ms := fun hm => h _ hm rfl

theorem RequestTrace.noAck {sent : Finset ℕ} {events : List LinkEvent}
    (tr : RequestTrace conn items sent (.ok false) events) : NoAck (takenMsgs events) := by
  rcases tr.ackEnd with ⟨hno, -⟩ | ⟨before, type, ty, -, -, hres⟩
  · exact hno
  · split_ifs at hres <;> simp at hres

/-- A successful upload ends with the first acknowledgement it takes, and until
then the items sent are the items requested; a failed one takes none that
accepts. -/
theorem UploadTrace.ackEnd {res : Except PyError Unit} {events : List LinkEvent}
    (tr : UploadTrace conn items t res events) :
    (∃ before ty, res = .ok () ∧ events = before ++ [.took (.missionAck 0 ty)] ∧
      NoAck (takenMsgs before) ∧ ∀ i (hi : i < items.length),
        .sent conn (.missionItemInt items[i]) ∈ before ↔
          ItemRequested items items[i] (takenMsgs before)) ∨
    ∃ x, res = .error x ∧ ∀ ty, .missionAck 0 ty ∉ takenMsgs events := by
  cases tr with
  | @early events tr =>
    rcases tr.ackEnd with ⟨-, hres⟩ | ⟨before, type, ty, rfl, hno, hres⟩
    · exact absurd rfl hres
    · have htype : type = 0 := by
        by_contra htype
        simp [htype] at hres
      subst htype
      refine .inl ⟨_ :: before, ty, rfl, rfl, by simpa using hno, fun i hi => ?_⟩
      have := tr.sent_iff items[i]
      simpa [ItemRequested, requestSeq, or_and_right, exists_or] using this
  | @late events wait tr w =>
    rcases w.finalAck with ⟨hnone, -⟩ | ⟨refused, type, ty, hsome, rfl, hno⟩
    · simp at hnone
    · obtain rfl := Option.some.inj hsome
      refine .inl ⟨.sent conn (.missionCount items.length t) :: (events ++ refused), ty, rfl,
        by simp, ?_, fun i hi => ?_⟩
      · intro m hm
        rcases List.mem_append.mp (by simpa using hm) with hm | hm
        · exact tr.noAck m hm
        · exact hno m hm
      · obtain ⟨m, hm, hreq⟩ : ∃ m ∈ takenMsgs events, requestSeq m = some i := by
          simpa using tr.complete (by simp) hi
        have hitem : ItemRequested items items[i] (takenMsgs events) :=
          ⟨m, hm, i, hreq, by simp [hi]⟩
        apply iff_of_true
        · simp [(tr.sent_iff items[i]).mpr hitem]
        · exact ⟨m, by simp [hm], i, hreq, by simp [hi]⟩
  | @failed x events tr =>
    refine .inr ⟨x, rfl, fun ty => ?_⟩
    rcases tr.ackEnd with ⟨hno, -⟩ | ⟨before, type, ty', rfl, hno, hres⟩
    · simpa using hno.not_mem 0 ty
    · have htype : type ≠ 0 := by
        rintro rfl
        simp at hres
      simp [hno.not_mem, htype.symm]
  | @unconfirmed x events wait res tr w hres =>
    refine .inr ⟨x, rfl, fun ty => ?_⟩
    rcases w.finalAck with ⟨-, hno⟩ | ⟨refused, type, ty', rfl, rfl, hno⟩
    · simp [tr.noAck.not_mem, hno.not_mem]
    · have htype : type ≠ 0 := by simpa using hres
      simp [tr.noAck.not_mem, hno.not_mem, htype.symm]

/-- Every item has been sent, and after that an accepting acknowledgement of
this mission type was received. -/
def AcknowledgedAfterAll (conn : Conn) (items : List MissionItem) (t : ℕ)
    (events : List LinkEvent) : Prop :=
  ∃ before rest, events = before ++ .took (.missionAck 0 t) :: rest ∧
    ∀ i (hi : i < items.length), .sent conn (.missionItemInt items[i]) ∈ before

/-- The accepting acknowledgement among these messages is of this mission type
and comes after a request for each of the items. -/
def AckInOrder (items : List MissionItem) (t : ℕ) (taken : List Msg) : Prop :=
  ∀ before ty rest, taken = before ++ .missionAck 0 ty :: rest →
    ty = t ∧ ∀ i (hi : i < items.length), ItemRequested items items[i] before

theorem concat_eq_append_cons {α : Type} {p : α → Prop} {a c d : List α} {x y : α}
    (heq : a ++ [x] = c ++ y :: d) (hy : p y) (ha : ∀ z ∈ a, ¬ p z) : a = c ∧ x = y := by
  rcases List.eq_nil_or_concat d with rfl | ⟨d, w, rfl⟩
  · obtain ⟨rfl, hxy⟩ := List.append_inj' heq rfl
    exact ⟨rfl, by simpa using hxy⟩
  · have heq' : a ++ [x] = (c ++ y :: d) ++ [w] := by simpa using heq
    obtain ⟨rfl, -⟩ := List.append_inj' heq' rfl
    exact absurd hy (ha y (by simp))

/-- An upload keeps its contract exactly when the accepting acknowledgement it
takes is in order: of its own mission type, and after every item was asked for. -/
theorem uploadMission_acknowledged_iff (conn : Conn) (items : List MissionItem) (t : ℕ)
    (l : Link) (hne : items ≠ []) :
    let o := (uploadMission conn items t).run link l
    (o.result = .ok () → AcknowledgedAfterAll conn items t o.events) ↔
      AckInOrder items t (takenMsgs o.events) := by
  intro o
  rcases (uploadMission_trace isLink_link conn hne t l).ackEnd with
    ⟨before, ty, hok, hev, hno, hsent⟩ | ⟨x, herr, hnone⟩
  · change o.events = _ at hev
    have htaken : takenMsgs o.events = takenMsgs before ++ [.missionAck 0 ty] := by simp [hev]
    constructor
    · intro hcontract before' ty' rest' heq
      obtain ⟨b, r, hb, hall⟩ := hcontract hok
      obtain ⟨rfl, hty⟩ := concat_eq_append_cons (hev.symm.trans hb)
        (p := fun e => ∃ type ty, e = .took (.missionAck type ty)) ⟨0, t, rfl⟩
        (by
          rintro _ hz ⟨type, ty, rfl⟩
          exact hno.not_mem type ty (mem_takenMsgs.mpr (.inl hz)))
      obtain ⟨rfl, hty'⟩ := concat_eq_append_cons (htaken.symm.trans heq)
        (p := fun m : Msg => m.getType = MsgType.missionAck) rfl (fun z hz => hno z hz)
      simp only [LinkEvent.took.injEq, Msg.missionAck.injEq, true_and] at hty hty'
      exact ⟨hty'.symm.trans hty, fun i hi => (hsent i hi).mp (hall i hi)⟩
    · intro horder _
      obtain ⟨rfl, hall⟩ := horder (takenMsgs before) ty [] htaken
      exact ⟨before, [], hev, fun i hi => (hsent i hi).mpr (hall i hi)⟩
  · change o.result = _ at herr
    change ∀ ty, _ ∉ takenMsgs o.events at hnone
    refine iff_of_true (fun hok => by simp [herr] at hok) fun before' ty' rest' heq => ?_
    exact absurd (by simp [heq]) (hnone ty')

/-- The ordinary upload of two waypoints, the second of which is asked for twice. -/
theorem uploadMission_acknowledged_two :
    let items : List MissionItem :=
      [{ seq := 0, frame := 5, command := 16 }, { seq := 1, frame := 5, command := 16 }]
    let requests : List Msg :=
      [.missionRequestInt 0 0, .missionRequestInt 1 0, .missionRequestInt 1 0]
    let l : Link := ⟨requests ++ [.missionAck 0 0], List.replicate 12 ⟨[], 4⟩⟩
    let o := (uploadMission ⟨1, 1⟩ items 0).run link l
    items ≠ [] ∧ o.result = .ok () ∧ AcknowledgedAfterAll ⟨1, 1⟩ items 0 o.events := by
  intro items requests l
  refine ⟨by simp [items], rfl, (uploadMission_acknowledged_iff ⟨1, 1⟩ items 0 l
    (by simp [items])).mpr
    ?_ rfl⟩
  intro before ty rest heq
  change requests ++ [.missionAck 0 0] = before ++ .missionAck 0 ty :: rest at heq
  obtain ⟨rfl, hty⟩ := concat_eq_append_cons heq (p := fun m => m.getType = MsgType.missionAck) rfl
    (by simp [requests, Msg.getType])
  cases hty
  refine ⟨rfl, fun i hi => ?_⟩
  have htwo : i = 0 ∨ i = 1 := by
    have hlt : i < 2 := hi
    omega
  rcases htwo with rfl | rfl
  · exact ⟨.missionRequestInt 0 0, by simp [requests], 0, rfl, rfl⟩
  · exact ⟨.missionRequestInt 1 0, by simp [requests], 1, rfl, rfl⟩

/-- A late acknowledgement of a fence upload, still in the queue, makes the
upload of a waypoint succeed before anything has been sent. -/
theorem uploadMission_stale_ack :
    let items : List MissionItem := [{ seq := 0, frame := 5, command := 16 }]
    let l : Link := ⟨[.missionAck 0 1], [⟨[], 0⟩, ⟨[], 1⟩]⟩
    let o := (uploadMission ⟨1, 1⟩ items 0).run link l
    o.result = .ok () ∧ sentMsgs o.events = [.missionCount 1 0] ∧
      ¬ AcknowledgedAfterAll ⟨1, 1⟩ items 0 o.events := by
  refine ⟨rfl, rfl, ?_⟩
  rintro ⟨before, rest, heq, hall⟩
  change [LinkEvent.sent ⟨1, 1⟩ (.missionCount 1 0), .took (.missionAck 0 1)] = _ at heq
  have hmem := List.mem_append_left (.took (.missionAck 0 0) :: rest) (hall 0 (by decide))
  rw [← heq] at hmem
  simp at hmem

/-- No request in range comes after all items have been requested. -/
def NoLateRequest (items : List MissionItem) (taken : List Msg) : Prop :=
  ∀ before m rest k, taken = before ++ m :: rest → requestSeq m = some k → k < items.length →
    ∃ i < items.length, i ∉ requested before

theorem RequestTrace.noLateRequest {res : Except PyError Bool} {events : List LinkEvent}
    (tr : RequestTrace conn items ∅ res events) : NoLateRequest items (takenMsgs events) := by
  intro before m rest k heq _ _
  have hcard := tr.pending heq
  rw [Finset.empty_union, ← Finset.card_range items.length] at hcard
  obtain ⟨i, hi, hni⟩ := Finset.exists_mem_notMem_of_card_lt_card hcard
  exact ⟨i, by simpa using hi, hni⟩

theorem answered_cons_sent {c : Conn} {m : Msg} {events : List LinkEvent} :
    Answered conn items (.sent c m :: events) ↔ Answered conn items events := by
  constructor
  · intro ha e rest m' k hk hsuf
    exact ha e rest m' k hk (hsuf.trans (List.suffix_cons _ _))
  · intro ha e rest m' k hk hsuf htaken
    rcases List.suffix_cons_iff.mp hsuf with heq | hsuf
    · obtain ⟨rfl, -⟩ := List.cons.inj heq
      simp [LinkEvent.takenMsg] at htaken
    · exact ha e rest m' k hk hsuf htaken

/-- Requests that reach the second loop are never answered. -/
theorem Waited.not_answered {res : Option ℕ} {wait : List LinkEvent}
    (w : Waited [.missionAck] ackType res wait) {before events : List LinkEvent} {m : Msg} {k : ℕ}
    (hk : k < items.length) (hm : m ∈ takenMsgs wait) (hreq : requestSeq m = some k)
    (heq : events = before ++ wait) : ¬ Answered conn items events := by
  intro ha
  obtain ⟨e, he, hem⟩ := List.mem_filterMap.mp hm
  obtain ⟨pre, post, rfl⟩ := List.append_of_mem he
  have hhead := ha e post m k hk ⟨before ++ pre, by simp [heq]⟩ hem hreq
  have hsent := w.nothingSent
  cases post with
  | nil => simp at hhead
  | cons e' post =>
    have he' : e' ∈ pre ++ e :: e' :: post := by simp
    obtain rfl : e' = .sent conn (.missionItemInt items[k]) := by simpa using hhead
    have hmem : Msg.missionItemInt items[k] ∈ sentMsgs _ :=
      List.mem_filterMap.mpr ⟨.sent conn (.missionItemInt items[k]), he', rfl⟩
    simp [hsent] at hmem

theorem Answered.append {ev wait : List LinkEvent} (ha : Answered conn items ev)
    (hw : ∀ m ∈ takenMsgs wait, ∀ k, requestSeq m = some k → items.length ≤ k) :
    Answered conn items (ev ++ wait) := by
  induction ev with
  | nil =>
    intro e rest m k hk hsuf htaken hreq
    have he : e ∈ wait := hsuf.subset (by simp)
    have := hw m (List.mem_filterMap.mpr ⟨e, he, htaken⟩) k hreq
    omega
  | cons x ev ih =>
    intro e rest m k hk hsuf htaken hreq
    rcases List.suffix_cons_iff.mp hsuf with heq | hsuf
    · obtain ⟨rfl, rfl⟩ := List.cons.inj heq
      have hhead := ha e ev m k hk List.suffix_rfl htaken hreq
      simp [List.head?_append, hhead]
    · exact ih (fun e' rest' m' k' hk' hsuf' => ha e' rest' m' k' hk'
        (hsuf'.trans (List.suffix_cons _ _))) e rest m k hk hsuf htaken hreq

/-- Both loops together answer every request exactly when none is left for the second. -/
theorem RequestTrace.answered_append_iff {ev wait : List LinkEvent} {last : Option ℕ}
    (tr : RequestTrace conn items ∅ (.ok false) ev)
    (w : Waited [.missionAck] ackType last wait) :
    Answered conn items (ev ++ wait) ↔
      NoLateRequest items (takenMsgs ev ++ takenMsgs wait) := by
  constructor
  · intro ha before m rest k heq hreq hk
    rcases List.append_eq_append_iff.mp heq with ⟨c, -, hw⟩ | ⟨c, hev, hrest⟩
    · exact absurd ha (w.not_answered hk (by simp [hw]) hreq rfl)
    · cases c with
      | nil =>
        have hw : takenMsgs wait = m :: rest := hrest.symm
        exact absurd ha (w.not_answered hk (by simp [hw]) hreq rfl)
      | cons m' c =>
        obtain ⟨rfl, -⟩ := List.cons.inj hrest
        exact tr.noLateRequest before m c k hev hreq hk
  · intro hlate
    refine tr.answered_all.append fun m hm k hreq => ?_
    by_contra hk
    obtain ⟨c, d, hcd⟩ := List.append_of_mem hm
    obtain ⟨i, hi, hni⟩ := hlate (takenMsgs ev ++ c) m d k (by simp [hcd]) hreq (not_le.mp hk)
    have hin : i ∈ ∅ ∪ requested (takenMsgs ev) := tr.complete (by simp) hi
    obtain ⟨m', hm', hreq'⟩ := mem_requested.mp (by simpa using hin)
    exact hni (mem_requested.mpr ⟨m', by simp [hm'], hreq'⟩)

theorem UploadTrace.answered_iff {res : Except PyError Unit} {events : List LinkEvent}
    (tr : UploadTrace conn items t res events) :
    Answered conn items events ↔ NoLateRequest items (takenMsgs events) := by
  cases tr with
  | early tr | failed tr =>
    rw [answered_cons_sent, takenMsgs_cons_sent]
    exact iff_of_true tr.answered_all tr.noLateRequest
  | late tr w | unconfirmed tr w _ =>
    rw [answered_cons_sent, takenMsgs_cons_sent, takenMsgs_append]
    exact tr.answered_append_iff w

/-- An upload answers every request it takes exactly when none arrives after
every item has already been requested. -/
theorem uploadMission_answered_iff (conn : Conn) (items : List MissionItem) (t : ℕ)
    (l : Link) :
    let o := (uploadMission conn items t).run link l
    Answered conn items o.events ↔ NoLateRequest items (takenMsgs o.events) := by
  by_cases hne : items = []
  · subst hne
    simp [uploadMission, Answered, NoLateRequest]
  · exact (uploadMission_trace isLink_link conn hne t l).answered_iff

/-- The autopilot lost the last item and asks for it again: the request is
discarded while the upload waits for the acknowledgement. -/
theorem uploadMission_lost_rerequest :
    let items : List MissionItem := [{ seq := 0, frame := 5, command := 16 }]
    let l : Link := ⟨[.missionRequestInt 0 0, .missionRequestInt 0 0],
      [⟨[], 0⟩, ⟨[], 2⟩, ⟨[], 0⟩, ⟨[], 0⟩, ⟨[], 3⟩]⟩
    let o := (uploadMission ⟨1, 1⟩ items 0).run link l
    .skipped (.missionRequestInt 0 0) ∈ o.events ∧
      sentMsgs o.events = [.missionCount 1 0, .missionItemInt items[0]] ∧
      ¬ Answered ⟨1, 1⟩ items o.events := by
  refine ⟨by decide, rfl, fun ha => ?_⟩
  have hhead := ha (.skipped (.missionRequestInt 0 0)) [] (.missionRequestInt 0 0) 0 (by decide)
    (by decide) rfl rfl
  simp at hhead

end MowerRover.Mavlink
