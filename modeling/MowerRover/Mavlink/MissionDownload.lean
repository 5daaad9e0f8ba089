import MowerRover.Mavlink.Link
import MowerRover.Mavlink.Mission

/-!
# What a completed download has seen

The event sequence of `downloadMission` against any link: a list request, a
wait for the count, then for each sequence number a request followed by a wait
for that item, and one closing acknowledgement. The list filled on the way
holds the received items in order and has no hole left.
-/

namespace MowerRover.Mavlink

open Effects

variable {σ : Type} {h : Handler linkSignature σ LinkEvent} {conn : Conn} {t : ℕ}

theorem itemOf_eq_some {k : ℕ} {m : Msg} {item : MissionItem} :
    itemOf t k m = some item ↔
      m = .missionItemInt item ∧ item.seq = k ∧ item.missionType = t := by
  cases m with
  | missionItemInt msg =>
    simp only [itemOf, Msg.missionItemInt.injEq]
    constructor
    · intro h
      split_ifs at h with hm
      obtain rfl := Option.some.inj h
      exact ⟨rfl, hm⟩
    · rintro ⟨rfl, hs, ht⟩
      simp [hs, ht]
  | _ => simp [itemOf]

theorem countOf_eq_some {m : Msg} {n : ℕ} : countOf t m = some n ↔ m = .missionCount n t := by
  cases m with
  | missionCount count ty =>
    simp only [countOf, Msg.missionCount.injEq]
    constructor
    · intro h
      split_ifs at h with hm
      exact ⟨Option.some.inj h, hm⟩
    · rintro ⟨rfl, rfl⟩
      simp
  | _ => simp [countOf]

/-- The events of fetching items `k, k + 1, …`, each after its own request. -/
inductive ItemsReceived (conn : Conn) (t : ℕ) : ℕ → List MissionItem → List LinkEvent → Prop
  | nil {k} : ItemsReceived conn t k [] []
  | cons {k item got wait events} :
      Waited [.missionItemInt] (itemOf t k) (some item) wait →
      ItemsReceived conn t (k + 1) got events →
      ItemsReceived conn t k (item :: got)
        (.sent conn (.missionRequestInt k t) :: (wait ++ events))

theorem ItemsReceived.sent {k : ℕ} {got : List MissionItem} {events : List LinkEvent}
    (hr : ItemsReceived conn t k got events) :
    sentMsgs events = (List.range' k got.length).map (.missionRequestInt · t) := by
  induction hr with
  | nil => rfl
  | cons w _ ih => simp [w.nothingSent, ih, List.range'_succ]

/-- Every item was taken from the link after its own request had been sent. -/
theorem ItemsReceived.item {k : ℕ} {got : List MissionItem} {events : List LinkEvent}
    (hr : ItemsReceived conn t k got events) (i : ℕ) (item : MissionItem)
    (hi : got[i]? = some item) :
    item.seq = k + i ∧ item.missionType = t ∧ ∃ before rest,
      events = before ++ .took (.missionItemInt item) :: rest ∧
      .sent conn (.missionRequestInt (k + i) t) ∈ before := by
  induction hr generalizing i with
  | nil => simp at hi
  | @cons k first got wait events w hr ih =>
    cases i with
    | zero =>
      obtain rfl : first = item := by simpa using hi
      cases w with
      | @accepted refused m _ r _ hacc =>
        obtain ⟨rfl, hseq, ht⟩ := itemOf_eq_some.mp hacc
        refine ⟨by simpa using hseq, ht, .sent conn (.missionRequestInt k t) :: refused, events,
          by simp, by simp⟩
    | succ i =>
      obtain ⟨hseq, ht, before, rest, rfl, hsent⟩ := ih i (by simpa using hi)
      refine ⟨by omega, ht, .sent conn (.missionRequestInt k t) :: (wait ++ before), rest,
        by simp, ?_⟩
      rw [show k + (i + 1) = k + 1 + i by omega]
      simp [hsent]

/-- The item loop fills the list from position `done.length` on, or times out. -/
theorem requestItems_run (hl : IsLink h) (conn : Conn) (t m : ℕ) (done : List MissionItem)
    (s : σ) :
    let o := (requestItems conn t (List.range' done.length m)
      (done.map some ++ List.replicate m none)).run h s
    (∃ got, got.length = m ∧ o.result = .ok ((done ++ got).map some) ∧
      ItemsReceived conn t done.length got o.events) ∨
    ∃ message, o.result = .error (.missionDownload message) ∧
      ∀ msg ∈ sentMsgs o.events, msg.getType = .missionRequestInt := by
  induction m generalizing done s with
  | zero => exact .inl ⟨[], rfl, by simp [requestItems], by simpa [requestItems] using .nil⟩
  | succ m ih =>
    obtain ⟨res, hres, w⟩ := waitWithin_waited hl 5 [.missionItemInt] (itemOf t done.length)
      (h (.send conn (.missionRequestInt done.length t)) s).2.1
    simp only [List.range'_succ, requestItems, Program.run_bind, run_send hl,
      Outcome.andThen_mk_ok, Outcome.andThen_ok hres, Outcome.after_after,
      Outcome.after_result, Outcome.after_events]
    cases res with
    | none =>
      refine .inr ⟨_, rfl, ?_⟩
      simp [w.nothingSent, Msg.getType]
    | some item =>
      have hset : (done.map some ++ List.replicate (m + 1) none).set done.length (some item) =
          (done ++ [item]).map some ++ List.replicate m none := by
        simp [List.replicate_succ]
      have hlen : done.length + 1 = (done ++ [item]).length := by simp
      simp only [hset, hlen]
      rcases ih (done ++ [item]) _ with ⟨got, hgot, hok, hrec⟩ | ⟨message, herr, hsent⟩
      · refine .inl ⟨item :: got, by simp [hgot], by simpa using hok, ?_⟩
        simpa using ItemsReceived.cons w (by simpa using hrec)
      · refine .inr ⟨message, herr, ?_⟩
        simpa [w.nothingSent, Msg.getType] using hsent

/-- The events of a whole download that ends with the items `got`. -/
inductive Downloaded (conn : Conn) (t : ℕ) : List MissionItem → List LinkEvent → Prop
  | empty {wait} : Waited [.missionCount] (countOf t) (some 0) wait →
      Downloaded conn t [] (.sent conn (.missionRequestList t) :: wait)
  | items {got wait events} : got ≠ [] →
      Waited [.missionCount] (countOf t) (some got.length) wait →
      ItemsReceived conn t 0 got events →
      Downloaded conn t got (.sent conn (.missionRequestList t) ::
        (wait ++ events ++ [.sent conn (.missionAck 0 t)]))

/-- A download either completes in this way or raises `MissionDownloadError`
without acknowledging anything. -/
theorem downloadMission_run (hl : IsLink h) (conn : Conn) (t : ℕ) (s : σ) :
    let o := (downloadMission conn t).run h s
    (∃ got, o.result = .ok (got.map some) ∧ Downloaded conn t got o.events) ∨
    ∃ message, o.result = .error (.missionDownload message) ∧
      ∀ msg ∈ sentMsgs o.events, msg.getType ≠ .missionAck := by
  obtain ⟨res, hres, w⟩ := waitWithin_waited hl 10 [.missionCount] (countOf t)
    (h (.send conn (.missionRequestList t)) s).2.1
  simp only [downloadMission, Program.run_bind, run_send hl, Outcome.andThen_mk_ok,
    Outcome.andThen_ok hres, Outcome.after_after, Outcome.after_result, Outcome.after_events]
  cases res with
  | none => exact .inr ⟨_, rfl, by simp [w.nothingSent, Msg.getType]⟩
  | some n =>
    by_cases hn : n = 0
    · subst hn
      exact .inl ⟨[], by simp, by simpa using Downloaded.empty w⟩
    · simp only [if_neg hn, Program.run_bind]
      have hrun := requestItems_run hl conn t n []
        ((waitWithin 10 [.missionCount] (countOf t)).run h
          (h (.send conn (.missionRequestList t)) s).2.1).state
      simp only [List.length_nil, List.map_nil, List.nil_append, ← List.range_eq_range'] at hrun
      rcases hrun with ⟨got, rfl, hok, hrec⟩ | ⟨message, herr, hsent⟩
      · refine .inl ⟨got, by simp [Outcome.andThen_ok hok, run_send hl], ?_⟩
        simpa [Outcome.andThen_ok hok, run_send hl] using
          Downloaded.items (by simpa using hn) w hrec
      · refine .inr ⟨message, by simp [Outcome.andThen_error herr], ?_⟩
        rw [Outcome.andThen_error herr]
        simp only [sentMsgs_append, w.nothingSent, sentMsgs_cons_sent, List.cons_append,
          List.nil_append, List.mem_cons, forall_eq_or_imp]
        exact ⟨by simp [Msg.getType], fun msg hm => by simp [hsent msg hm]⟩

theorem Downloaded.sent {got : List MissionItem} {events : List LinkEvent}
    (hd : Downloaded conn t got events) :
    sentMsgs events = .missionRequestList t ::
      ((List.range got.length).map (.missionRequestInt · t) ++
        if 0 < got.length then [.missionAck 0 t] else []) := by
  cases hd with
  | empty w => simp [w.nothingSent]
  | items hne w hr =>
    simp [w.nothingSent, hr.sent, List.range_eq_range', List.length_pos_iff.mpr hne]

theorem Waited.firstCount {n : ℕ} {events : List LinkEvent}
    (w : Waited [.missionCount] (countOf t) (some n) events) :
    ∃ before, takenMsgs events = before ++ [.missionCount n t] ∧
      ∀ k, .missionCount k t ∉ before := by
  cases w with
  | @accepted refused m _ r _ hacc =>
    obtain rfl := countOf_eq_some.mp hacc
    refine ⟨takenMsgs refused, by simp, fun k hk => ?_⟩
    rcases mem_takenMsgs.mp hk with hk | hk
    · have := (r.took _ hk).2
      simp [countOf] at this
    · exact r.skipped _ hk (by simp [Msg.getType])

theorem Downloaded.firstCount {got : List MissionItem} {events : List LinkEvent}
    (hd : Downloaded conn t got events) :
    ∃ before rest, takenMsgs events = before ++ .missionCount got.length t :: rest ∧
      ∀ k, .missionCount k t ∉ before := by
  cases hd with
  | empty w =>
    obtain ⟨before, heq, hfirst⟩ := w.firstCount
    exact ⟨before, [], by simpa using heq, hfirst⟩
  | @items _ wait events _ w hr =>
    obtain ⟨before, heq, hfirst⟩ := w.firstCount
    exact ⟨before, takenMsgs events, by simp [heq], hfirst⟩

theorem Downloaded.item {got : List MissionItem} {events : List LinkEvent}
    (hd : Downloaded conn t got events) (i : ℕ) (item : MissionItem)
    (hi : got[i]? = some item) :
    item.seq = i ∧ item.missionType = t ∧ ∃ before rest,
      events = before ++ .took (.missionItemInt item) :: rest ∧
      .sent conn (.missionRequestInt i t) ∈ before := by
  cases hd with
  | empty w => simp at hi
  | @items _ wait events _ w hr =>
    obtain ⟨hseq, ht, before, rest, rfl, hsent⟩ := hr.item i item hi
    rw [Nat.zero_add] at hseq hsent
    exact ⟨hseq, ht, .sent conn (.missionRequestList t) :: (wait ++ before),
      rest ++ [.sent conn (.missionAck 0 t)], by simp, by simp [hsent]⟩

/-- A returned list has the length of the first count of its type; each entry
is an item of this type and number, taken after it was requested; the requests
went out in order, each once, and the transaction was acknowledged once unless
it was empty. A download that fails raises `MissionDownloadError` and
acknowledges nothing. -/
theorem downloadMission_outcome (conn : Conn) (t : ℕ) (l : Link) :
    let o := (downloadMission conn t).run link l
    (∀ L, o.result = .ok L → ∃ n,
      (∃ before rest, takenMsgs o.events = before ++ .missionCount n t :: rest ∧
        ∀ k, .missionCount k t ∉ before) ∧
      L.length = n ∧
      (∀ i < n, ∃ item, L[i]? = some (some item) ∧ item.seq = i ∧ item.missionType = t ∧
        ∃ before rest, o.events = before ++ .took (.missionItemInt item) :: rest ∧
          .sent conn (.missionRequestInt i t) ∈ before) ∧
      sentMsgs o.events = .missionRequestList t ::
        ((List.range n).map (.missionRequestInt · t) ++
          if 0 < n then [.missionAck 0 t] else [])) ∧
    (∀ e, o.result = .error e → (∃ message, e = .missionDownload message) ∧
      ∀ type ty, .missionAck type ty ∉ sentMsgs o.events) := by
  rcases downloadMission_run isLink_link conn t l with
    ⟨got, hok, hd⟩ | ⟨message, herr, hsent⟩
  · refine ⟨fun L hL => ?_, fun e he => by simp [hok] at he⟩
    obtain rfl : got.map some = L := by simpa [hok] using hL
    refine ⟨got.length, hd.firstCount, by simp, fun i hi => ?_, hd.sent⟩
    refine ⟨got[i], by simp [hi], hd.item i got[i] (by simp [hi])⟩
  · refine ⟨fun L hL => by simp [herr] at hL, fun e he => ⟨⟨message, ?_⟩, ?_⟩⟩
    · simpa [herr] using he.symm
    · intro type ty hm
      exact hsent _ hm rfl

end MowerRover.Mavlink
