import MowerRover.Mavlink.RoundTrip

/-!
# Clearing a faithful autopilot

A clear that is confirmed has been carried out, whatever an interrupted upload
has left on its way: messages reach the autopilot in order, so once it answers
the list request that follows the clear, everything sent before the clear is
behind it. From then on the list stays empty until the client announces another
upload of that type.
-/

namespace MowerRover.Mavlink

open Effects

/-- Messages by which a client changes what is stored. -/
def Msg.isWriting : Msg → Bool
  | .missionCount .. | .missionItemInt _ | .missionClearAll _ => true
  | _ => false

namespace World

@[simp] theorem emit_toAutopilot (w : World) (m : Msg) : (w.emit m).toAutopilot =
    w.toAutopilot := rfl

@[simp] theorem emit_store (w : World) (m : Msg) : (w.emit m).store = w.store := rfl

@[simp] theorem emit_upload (w : World) (m : Msg) : (w.emit m).upload = w.upload := rfl

@[simp] theorem request_toAutopilot (w : World) (seq t : ℕ) :
    (w.request seq t).toAutopilot = w.toAutopilot := rfl

@[simp] theorem request_store (w : World) (seq t : ℕ) : (w.request seq t).store = w.store := rfl

@[simp] theorem request_upload (w : World) (seq t : ℕ) : (w.request seq t).upload = w.upload := rfl

theorem cleared_length_le (w : World) (t : ℕ) : (w.cleared t).length ≤ clearedLength t := by
  unfold cleared clearedLength
  split_ifs with h h'
  · simp
  · exact absurd h.1 h'
  · simp
  · simp

/-- An item changes at most the list of the upload in progress, which it may end. -/
theorem storeItem_cases (w : World) (item : MissionItem) :
    ((w.storeItem item).store = w.store ∧ (w.storeItem item).upload = w.upload) ∨
      ∃ t n stored, w.upload = some (t, n) ∧
        (w.storeItem item).store = Function.update w.store t stored ∧
        ((w.storeItem item).upload = some (t, n) ∨ (w.storeItem item).upload = none) := by
  cases hup : w.upload with
  | none => exact .inl (by simp [storeItem, hup])
  | some upload =>
    obtain ⟨t, n⟩ := upload
    by_cases hexp : item.missionType = t ∧ item.seq = (w.store t).length
    · refine .inr ⟨t, n, w.store t ++ [item], rfl, ?_⟩
      simp only [storeItem, hup, if_pos hexp]
      split_ifs
      · exact ⟨rfl, .inl hup⟩
      · exact ⟨rfl, .inr rfl⟩
    · exact .inl (by simp [storeItem, hup, hexp])

theorem storeItem_toAutopilot (w : World) (item : MissionItem) :
    (w.storeItem item).toAutopilot = w.toAutopilot := by
  unfold storeItem
  split
  · rfl
  · dsimp only
    split_ifs <;> rfl

theorem receive_toAutopilot (w : World) (m : Msg) : (w.receive m).toAutopilot = w.toAutopilot := by
  cases m with
  | missionItemInt item => exact w.storeItem_toAutopilot item
  | missionRequestInt k t => cases hk : (w.store t)[k]? <;> simp [receive, hk]
  | _ => rfl

theorem receive_inbox (w : World) (inbox : List Msg) (m : Msg) :
    { w with inbox := inbox }.receive m = { w.receive m with inbox := inbox } := by
  cases m with
  | missionItemInt item =>
    cases hup : w.upload with
    | none => simp [receive, storeItem, hup]
    | some upload =>
      obtain ⟨t, n⟩ := upload
      by_cases hexp : item.missionType = t ∧ item.seq = (w.store t).length
      · by_cases hlt : (w.store t).length + 1 < n
        · simp [receive, storeItem, hup, hexp, hlt, setStore, request, emit]
        · simp [receive, storeItem, hup, hexp, hlt, setStore, emit]
      · simp [receive, storeItem, hup, hexp]
  | missionRequestInt k t => cases hk : (w.store t)[k]? <;> simp [receive, hk, emit]
  | _ => rfl

theorem move_inbox (w : World) (inbox : List Msg) (mv : Move) :
    ∃ later, { w with inbox := inbox }.move mv = { w.move mv with inbox := later } := by
  cases mv with
  | deliver => cases hq : w.toClient <;> exact ⟨_, by simp only [move, hq]; rfl⟩
  | handle =>
    cases hq : w.toAutopilot with
    | nil => exact ⟨inbox, by simp [move, hq]⟩
    | cons m ms =>
      refine ⟨inbox, ?_⟩
      simpa [move, hq] using receive_inbox { w with toAutopilot := ms } inbox m
  | again i =>
    refine ⟨inbox, ?_⟩
    cases hi : w.emitted[i]? with
    | none => simp [move, hi]
    | some m =>
      simp only [move, hi]
      split_ifs <;> rfl
  | telemetry m =>
    refine ⟨inbox, ?_⟩
    simp only [move]
    split_ifs <;> rfl

theorem receive_reading (w : World) {m : Msg} (hm : m.isWriting = false) :
    (w.receive m).store = w.store ∧ (w.receive m).upload = w.upload := by
  cases m with
  | missionCount _ _ | missionItemInt _ | missionClearAll _ => simp [Msg.isWriting] at hm
  | missionRequestInt k t => cases hk : (w.store t)[k]? <;> simp [receive, hk]
  | _ => exact ⟨rfl, rfl⟩

end World

/-- No upload is in progress or announced. -/
structure Quiet (w : World) : Prop where
  upload : w.upload = none
  requests : ∀ m ∈ w.toAutopilot, m.getType = .missionItemInt ∨ m.isWriting = false

theorem Quiet.move (mv : Move) {store : ℕ → List MissionItem} (w : World)
    (hI : Quiet w ∧ w.store = store) : Quiet (w.move mv) ∧ (w.move mv).store = store := by
  obtain ⟨⟨hup, hreq⟩, hstore⟩ := hI
  rcases w.move_cases mv with ⟨m, ms, hq, heq⟩ | hs
  · have hms : ∀ m ∈ ms, m.getType = .missionItemInt ∨ m.isWriting = false :=
      fun m hm => hreq m (by simp [hq, hm])
    rw [heq]
    rcases hreq m (by simp [hq]) with hitem | hread
    · obtain ⟨item, rfl⟩ : ∃ item, m = .missionItemInt item := by
        cases m <;> simp_all [Msg.getType]
      simp only [World.receive, World.storeItem, hup]
      exact ⟨⟨rfl, hms⟩, hstore⟩
    · obtain ⟨h1, h2⟩ := World.receive_reading { w with toAutopilot := ms } hread
      exact ⟨⟨h2.trans hup, by rwa [World.receive_toAutopilot]⟩, h1.trans hstore⟩
  · obtain ⟨hto, hstore', hup'⟩ := hs.frame
    exact ⟨⟨hup' ▸ hup, hto ▸ hreq⟩, hstore'.trans hstore⟩

theorem Quiet.send {m : Msg} (hm : m.isWriting = false) {w : World} (hI : Quiet w) :
    Quiet { w with toAutopilot := w.toAutopilot ++ [m] } := by
  refine ⟨hI.upload, fun m' hm' => ?_⟩
  rcases List.mem_append.mp hm' with hm' | hm'
  · exact hI.requests m' hm'
  · exact .inr (List.mem_singleton.mp hm' ▸ hm)

theorem Idle.quiet {w : World} (hI : Idle w) (hup : w.upload = none) : Quiet w :=
  ⟨hup, fun m hm => .inl (hI.leftover m hm)⟩

/-- The list of this type is empty and no upload of it is in progress or announced. -/
structure Cleared (t : ℕ) (w : World) : Prop where
  store : (w.store t).length ≤ clearedLength t
  upload : ∀ n, w.upload ≠ some (t, n)
  announced : ∀ n, .missionCount n t ∉ w.toAutopilot

theorem Cleared.receive {t : ℕ} {w : World} (hI : Cleared t w) {m : Msg} {ms : List Msg}
    (hq : w.toAutopilot = m :: ms) : Cleared t ({ w with toAutopilot := ms }.receive m) := by
  obtain ⟨hstore, hup, hann⟩ := hI
  have hms : ∀ n, .missionCount n t ∉ ({ w with toAutopilot := ms }.receive m).toAutopilot := by
    intro n hn
    rw [World.receive_toAutopilot] at hn
    exact hann n (hq ▸ List.mem_cons_of_mem m hn)
  by_cases hwrite : m.isWriting = false
  · obtain ⟨hs, hu⟩ := World.receive_reading { w with toAutopilot := ms } hwrite
    exact ⟨by rwa [hs], by rwa [hu], hms⟩
  cases m with
  | missionCount n u =>
    have hut : t ≠ u := fun h => hann n (by simp [hq, h])
    refine ⟨?_, fun k => ?_, hms⟩
    · simpa [World.receive, World.setStore, hut] using hstore
    · simp [World.receive, World.setStore, hut.symm]
  | missionItemInt item =>
    rcases World.storeItem_cases { w with toAutopilot := ms } item with
      ⟨hs, hu⟩ | ⟨u, n, stored, hold, hs, hu⟩
    · exact ⟨by simpa [World.receive, hs] using hstore, by simpa [World.receive, hu] using hup, hms⟩
    · have hut : t ≠ u := fun h => hup n (h ▸ hold)
      refine ⟨by simpa [World.receive, hs, hut] using hstore, fun k => ?_, hms⟩
      rcases hu with hu | hu
      · simp [World.receive, hu, hut.symm]
      · simp [World.receive, hu]
  | missionClearAll u =>
    refine ⟨?_, fun k hk => ?_, hms⟩
    · by_cases hut : t = u
      · subst hut
        simpa [World.receive, World.setStore] using
          World.cleared_length_le { w with toAutopilot := ms } t
      · simpa [World.receive, World.setStore, hut] using hstore
    · simp only [World.receive, World.emit_upload, World.setStore] at hk
      split_ifs at hk
      exact hup k hk
  | _ => exact absurd rfl hwrite

theorem Cleared.move {t : ℕ} (mv : Move) (w : World) (hI : Cleared t w) : Cleared t
    (w.move mv) := by
  rcases w.move_cases mv with ⟨m, ms, hq, heq⟩ | hs
  · rw [heq]
    exact hI.receive hq
  · obtain ⟨hto, hstore, hup⟩ := hs.frame
    exact ⟨hstore ▸ hI.store, hup ▸ hI.upload, hto ▸ hI.announced⟩

theorem Cleared.send {t : ℕ} {m : Msg} (hm : m.getType ≠ .missionCount) {w : World}
    (hI : Cleared t w) : Cleared t { w with toAutopilot := w.toAutopilot ++ [m] } := by
  refine ⟨hI.store, hI.upload, fun n hn => ?_⟩
  rcases List.mem_append.mp hn with hn | hn
  · exact hI.announced n hn
  · exact hm (List.mem_singleton.mp hn ▸ rfl)

/-- The autopilot has not been asked to list this type and has not done so. -/
structure Unlisted (t : ℕ) (w : World) : Prop where
  requests : .missionRequestList t ∉ w.toAutopilot
  air : OnAir (fun m => ∀ n, m ≠ .missionCount n t) w

/-- What the autopilot sends is a count only as the answer to a list request. -/
theorem World.receive_onAir {t : ℕ} (w : World) {m : Msg} (hm : m ≠ .missionRequestList t)
    (hw : OnAir (fun m => ∀ n, m ≠ .missionCount n t) w) :
    OnAir (fun m => ∀ n, m ≠ .missionCount n t) (w.receive m) := by
  have hrequest : ∀ (w : World) seq u, OnAir (fun m => ∀ n, m ≠ .missionCount n t) w →
      OnAir (fun m => ∀ n, m ≠ .missionCount n t) (w.request seq u) := by
    intro w seq u hw
    exact onAir_emit hw fun n h => (w.requestMsg_getType seq u).2.1 (by rw [h]; rfl)
  cases m with
  | missionCount n u => exact hrequest _ 0 u hw
  | missionItemInt item =>
    change OnAir _ (w.storeItem item)
    unfold World.storeItem
    split
    · exact hw
    · dsimp only
      split_ifs
      · exact hrequest _ _ _ hw
      · exact onAir_emit hw (by simp)
      · exact hw
  | missionClearAll u => exact onAir_emit hw (by simp)
  | missionRequestList u =>
    refine onAir_emit hw fun n h => hm ?_
    simp only [Msg.missionCount.injEq] at h
    rw [h.2]
  | missionRequestInt k u =>
    cases hk : (w.store u)[k]? with
    | none => simpa [World.receive, hk] using hw
    | some item => simpa [World.receive, hk] using onAir_emit hw (by simp)
  | _ => exact hw

theorem Unlisted.move {t : ℕ} (mv : Move) (w : World) (hI : Unlisted t w) :
    Unlisted t (w.move mv) := by
  rcases w.move_cases mv with ⟨m, ms, hq, heq⟩ | hs
  · have hreq := hI.requests
    rw [hq, List.mem_cons, not_or] at hreq
    rw [heq]
    refine ⟨?_, World.receive_onAir _ (Ne.symm hreq.1) hI.air⟩
    rw [World.receive_toAutopilot]
    exact hreq.2
  · obtain ⟨hto, -, -⟩ := hs.frame
    refine ⟨hto ▸ hI.requests, hs.onAir hI.air fun m hm n h => ?_⟩
    subst h
    simp [Msg.isTelemetry] at hm

theorem Unlisted.send {t : ℕ} {m : Msg} (hm : m ≠ .missionRequestList t) {w : World}
    (hI : Unlisted t w) : Unlisted t { w with toAutopilot := w.toAutopilot ++ [m] } := by
  refine ⟨fun h => ?_, hI.air⟩
  rcases List.mem_append.mp h with h | h
  · exact hI.requests h
  · exact hm (List.mem_singleton.mp h).symm

theorem Unlisted.take {t : ℕ} {got rest : List Msg} {w : World} (hq : w.inbox = got ++ rest)
    (hI : Unlisted t w) : Unlisted t { w with inbox := rest } := by
  refine ⟨hI.requests, fun m hm => hI.air m ?_⟩
  simp only [World.mem_air, hq, List.mem_append] at hm ⊢
  tauto

/-- The invariant of a clear: it is still on its way, and no count of its type
has been seen or can be, or it has been carried out. -/
inductive Clearing (t : ℕ) (taken : List Msg) (w : World) : Prop
  | pending {before after : List Msg} : w.toAutopilot = before ++ .missionClearAll t :: after →
      .missionRequestList t ∉ before → (∀ n, .missionCount n t ∉ after) →
      OnAir (fun m => ∀ n, m ≠ .missionCount n t) w → (∀ n, .missionCount n t ∉ taken) →
      Clearing t taken w
  | done : Cleared t w → Clearing t taken w

section Clear

variable {t : ℕ} {taken : List Msg} {w : World}

theorem Clearing.receive (hI : Clearing t taken w) {m : Msg} {ms : List Msg}
    (hq : w.toAutopilot = m :: ms) :
    Clearing t taken ({ w with toAutopilot := ms }.receive m) := by
  cases hI with
  | done hI => exact .done (hI.receive hq)
  | @pending before after hto hbefore hafter hair htaken =>
    cases before with
    | nil =>
      obtain ⟨rfl, rfl⟩ : m = .missionClearAll t ∧ ms = after := by simpa [hq] using hto
      refine .done ⟨?_, fun n hn => ?_, fun n hn => hafter n ?_⟩
      · simpa [World.receive, World.setStore] using
          World.cleared_length_le { w with toAutopilot := ms } t
      · simp only [World.receive, World.emit_upload, World.setStore] at hn
        split_ifs at hn with hsame
        exact hsame (by simp [hn])
      · rwa [World.receive_toAutopilot] at hn
    | cons m' before =>
      obtain ⟨rfl, rfl⟩ : m = m' ∧ ms = before ++ .missionClearAll t :: after := by
        simpa [hq] using hto
      rw [List.mem_cons, not_or] at hbefore
      exact .pending (World.receive_toAutopilot _ m) hbefore.2 hafter
        (World.receive_onAir _ (Ne.symm hbefore.1) hair) htaken

theorem Clearing.move (mv : Move) (taken : List Msg) (w : World) (hI : Clearing t taken w) :
    Clearing t taken (w.move mv) := by
  rcases w.move_cases mv with ⟨m, ms, hq, heq⟩ | hs
  · rw [heq]
    exact hI.receive hq
  · cases hI with
    | done hI => exact .done (hI.move mv)
    | pending hto hbefore hafter hair htaken =>
      refine .pending (hs.frame.1.trans hto) hbefore hafter
        (hs.onAir hair fun m hm n h => ?_) htaken
      subst h
      simp [Msg.isTelemetry] at hm

theorem DownloadMsg.getType_ne {m : Msg} (hm : DownloadMsg t m) : m.getType ≠ .missionCount := by
  rcases hm with rfl | ⟨k, rfl⟩ | rfl <;> simp [Msg.getType]

theorem Clearing.send (m : Msg) (taken : List Msg) (w : World) (hm : DownloadMsg t m)
    (hI : Clearing t taken w) :
    Clearing t taken { w with toAutopilot := w.toAutopilot ++ [m] } := by
  cases hI with
  | done hI => exact .done (hI.send hm.getType_ne)
  | @pending before after hto hbefore hafter hair htaken =>
    have hto' : w.toAutopilot ++ [m] = before ++ .missionClearAll t :: (after ++ [m]) := by
      simp [hto]
    refine .pending hto' hbefore (fun n hn => ?_) hair htaken
    rcases List.mem_append.mp hn with hn | hn
    · exact hafter n hn
    · exact hm.getType_ne (List.mem_singleton.mp hn ▸ rfl)

theorem Clearing.take (got rest taken : List Msg) (w : World) (hq : w.inbox = got ++ rest)
    (hI : Clearing t taken w) : Clearing t (taken ++ got) { w with inbox := rest } := by
  cases hI with
  | done hI => exact .done ⟨hI.store, hI.upload, hI.announced⟩
  | pending hto hbefore hafter hair htaken =>
    have hgot : ∀ m, m ∈ got ∨ m ∈ ({ w with inbox := rest } : World).air → m ∈ w.air := by
      intro m hm
      simp only [World.mem_air, hq, List.mem_append] at hm ⊢
      tauto
    refine .pending hto hbefore hafter (fun m hm => hair m (hgot m (.inr hm))) fun n hn => ?_
    rcases List.mem_append.mp hn with hn | hn
    · exact htaken n hn
    · exact hair _ (hgot _ (.inl hn)) n rfl

end Clear

end MowerRover.Mavlink
