import MowerRover.Mavlink.Autopilot

/-!
# The round trip through a faithful autopilot

An upload that returns leaves exactly its items in the store, and a download
that returns gives exactly the stored items, in every interleaving and with
repeated messages. The upload's invariant follows the autopilot through four
phases and counts acknowledgements: none is under way before the last item is
stored, and one from then on. The download's invariant is that every count and
every item that can still reach the client is one of the store.
-/

namespace MowerRover.Mavlink

open Effects

/-- The number of acknowledgements among these messages. -/
def acks (ms : List Msg) : ℕ := ms.countP fun m => m.getType == .missionAck

@[simp] theorem acks_nil : acks [] = 0 := rfl

@[simp] theorem acks_append (a b : List Msg) : acks (a ++ b) = acks a + acks b :=
  List.countP_append

theorem acks_eq_zero {ms : List Msg} : acks ms = 0 ↔ NoAck ms := by
  simp [acks, NoAck, List.countP_eq_zero]

@[simp] theorem acks_singleton_ack (type t : ℕ) : acks [.missionAck type t] = 1 := rfl

theorem acks_singleton {m : Msg} (h : m.getType ≠ .missionAck) : acks [m] = 0 :=
  acks_eq_zero.mpr (by simpa [NoAck] using h)

namespace World

/-- Messages that are still to be taken by the client. -/
def pending (w : World) : List Msg := w.inbox ++ w.toClient

/-- Messages that are still to be taken, or can be delivered again. -/
def air (w : World) : List Msg := w.inbox ++ w.toClient ++ w.emitted

theorem mem_air {w : World} {m : Msg} :
    m ∈ w.air ↔ m ∈ w.inbox ∨ m ∈ w.toClient ∨ m ∈ w.emitted := by
  simp [air]

theorem acks_pending_emit (w : World) (m : Msg) :
    acks (w.emit m).pending = acks w.pending + acks [m] := by
  simp [pending, emit, Nat.add_assoc]

theorem requestMsg_getType (w : World) (seq t : ℕ) :
    let m : Msg := if w.legacy then .missionRequest seq t else .missionRequestInt seq t
    m.getType ≠ .missionAck ∧ m.getType ≠ .missionCount ∧ m.getType ≠ .missionItemInt := by
  cases w.legacy <;> simp [Msg.getType]

end World

/-- What the invariants below ask of the messages the client may still see. -/
def OnAir (good : Msg → Prop) (w : World) : Prop := ∀ m ∈ w.air, good m

theorem onAir_emit {good : Msg → Prop} {w : World} {m : Msg} (hw : OnAir good w) (hm : good m) :
    OnAir good (w.emit m) := by
  intro m' hm'
  have hmem : m' ∈ w.air ∨ m' = m := by
    simp only [World.mem_air, World.emit, List.mem_append, List.mem_singleton] at hm' ⊢
    tauto
  rcases hmem with hmem | rfl
  · exact hw m' hmem
  · exact hm

/-- A step of the link that is not the autopilot's. -/
inductive LinkStep : World → World → Prop
  | none {w} : LinkStep w w
  | deliver {w m ms} : w.toClient = m :: ms →
      LinkStep w { w with inbox := w.inbox ++ [m], toClient := ms }
  | again {w m} : m ∈ w.emitted → m.getType ≠ .missionAck →
      LinkStep w { w with toClient := w.toClient ++ [m] }
  | telemetry {w m} : m.isTelemetry = true → LinkStep w { w with toClient := w.toClient ++ [m] }

/-- A move is one message handled by the autopilot, or a step of the link. -/
theorem World.move_cases (w : World) (mv : Move) :
    (∃ m ms, w.toAutopilot = m :: ms ∧ w.move mv = { w with toAutopilot := ms }.receive m) ∨
      LinkStep w (w.move mv) := by
  cases mv with
  | deliver =>
    cases hq : w.toClient with
    | nil => exact .inr (by simpa [World.move, hq] using .none)
    | cons m ms => exact .inr (by simpa [World.move, hq] using .deliver hq)
  | handle =>
    cases hq : w.toAutopilot with
    | nil => exact .inr (by simpa [World.move, hq] using .none)
    | cons m ms => exact .inl ⟨m, ms, rfl, by simp [World.move, hq]⟩
  | again i =>
    cases hi : w.emitted[i]? with
    | none => exact .inr (by simpa [World.move, hi] using .none)
    | some m =>
      by_cases hm : m.getType = .missionAck
      · exact .inr (by simpa [World.move, hi, hm] using .none)
      · exact .inr (by
          simpa [World.move, hi, hm] using .again (List.mem_of_getElem? hi) hm)
  | telemetry m =>
    by_cases hm : m.isTelemetry = true
    · exact .inr (by simpa [World.move, hm] using .telemetry hm)
    · exact .inr (by simpa [World.move, hm] using .none)

theorem isTelemetry_getType {m : Msg} (hm : m.isTelemetry = true) :
    m.getType ≠ .missionAck ∧ m.getType ≠ .missionCount ∧ m.getType ≠ .missionItemInt := by
  cases m <;> simp_all [Msg.isTelemetry, Msg.getType]

namespace LinkStep

variable {w w' : World}

theorem frame (h : LinkStep w w') : w'.toAutopilot = w.toAutopilot ∧ w'.store = w.store ∧
    w'.upload = w.upload := by
  cases h <;> exact ⟨rfl, rfl, rfl⟩

theorem acks_pending (h : LinkStep w w') : acks w'.pending = acks w.pending := by
  cases h with
  | none => rfl
  | deliver hq => simp [World.pending, hq]
  | again _ hm => simp [World.pending, acks_singleton hm]
  | telemetry hm => simp [World.pending, acks_singleton (isTelemetry_getType hm).1]

theorem onAir {good : Msg → Prop} (h : LinkStep w w') (hw : OnAir good w)
    (htel : ∀ m, m.isTelemetry = true → good m) : OnAir good w' := by
  intro m hm
  simp only [World.mem_air] at hm
  have hold : ∀ {m}, m ∈ w.inbox ∨ m ∈ w.toClient ∨ m ∈ w.emitted → good m := fun h =>
    hw _ (World.mem_air.mpr h)
  cases h with
  | none => exact hold hm
  | deliver hq =>
    refine hold ?_
    simp only [hq, List.mem_append, List.mem_cons] at hm ⊢
    tauto
  | again he _ =>
    refine hold ?_
    simp only [List.mem_append, List.mem_singleton] at hm
    rcases hm with hm | (hm | rfl) | hm <;> tauto
  | telemetry ht =>
    simp only [List.mem_append, List.mem_singleton] at hm
    rcases hm with hm | (hm | rfl) | hm
    · exact hold (.inl hm)
    · exact hold (.inr (.inl hm))
    · exact htel _ ht
    · exact hold (.inr (.inr hm))

end LinkStep

section Upload

variable {items : List MissionItem} {t : ℕ}

/-- Items carry the mission type of the transaction and their position in it. -/
def Numbered (items : List MissionItem) (t : ℕ) : Prop :=
  ∀ i (hi : i < items.length), items[i].seq = i ∧ items[i].missionType = t

theorem Numbered.mem (hn : Numbered items t) {item : MissionItem} (hm : item ∈ items) :
    items[item.seq]? = some item := by
  obtain ⟨i, hi, rfl⟩ := List.getElem_of_mem hm
  simp [(hn i hi).1, hi]

/-- How far the autopilot is in the upload, with the number of acknowledgements
sent for it. -/
inductive Phase (items : List MissionItem) (t : ℕ) : ℕ → World → Prop
  /-- the count is still on its way, behind items of an earlier upload at most -/
  | fresh {w : World} {old new : List Msg} :
      w.toAutopilot = old ++ .missionCount items.length t :: new →
      (∀ m ∈ old, m.getType = .missionItemInt) → (∀ m ∈ new, ItemMsg items m) →
      (old = [] ∨ w.upload = none) → Phase items t 0 w
  | running {w : World} {k : ℕ} : k < items.length → w.store t = items.take k →
      w.upload = some (t, items.length) → (∀ m ∈ w.toAutopilot, ItemMsg items m) →
      Phase items t 0 w
  | stored {w : World} : w.store t = items → w.upload = none →
      (∀ m ∈ w.toAutopilot, ItemMsg items m) → Phase items t 1 w

/-- The invariant of an upload of `items`: which phase the autopilot is in, that
the other lists stay as they were, and that nothing is listed meanwhile. -/
structure Uploading (items : List MissionItem) (t : ℕ) (old : ℕ → List MissionItem)
    (taken : List Msg) (w : World) : Prop where
  phase : ∃ c, acks taken + acks w.pending = c ∧ Phase items t c w
  others : ∀ u, u ≠ t → w.store u = old u
  silent : OnAir (fun m => m.getType ≠ .missionCount ∧ m.getType ≠ .missionItemInt) w

/-- What the autopilot does with an item it may be waiting for. -/
theorem World.storeItem_running {w : World} {k : ℕ} (hn : Numbered items t)
    (hk : k < items.length) (hstore : w.store t = items.take k)
    (hup : w.upload = some (t, items.length)) {item : MissionItem} (hitem : item ∈ items) :
    w.storeItem item = w ∨
      (k + 1 < items.length ∧
        w.storeItem item = (w.setStore t (items.take (k + 1))).request (k + 1) t) ∨
      (k + 1 = items.length ∧ w.storeItem item =
        { w.setStore t items with upload := none }.emit (.missionAck 0 t)) := by
  have hlen : (w.store t).length = k := by simp [hstore]; omega
  by_cases hexp : item.missionType = t ∧ item.seq = k
  · have hget := hn.mem hitem
    rw [hexp.2] at hget
    have hnext : w.store t ++ [item] = items.take (k + 1) := by
      rw [hstore, List.take_add_one, hget]
      rfl
    have hlen' : (items.take (k + 1)).length = k + 1 := by simp; omega
    refine .inr ?_
    by_cases hlast : k + 1 < items.length
    · refine .inl ⟨hlast, ?_⟩
      simp [World.storeItem, hup, hexp, hlen, hnext, hlen', hlast, World.setStore]
    · have hall : items.take (k + 1) = items := List.take_of_length_le (by omega)
      refine .inr ⟨by omega, ?_⟩
      simp [World.storeItem, hup, hexp, hlen, hnext, hall, World.setStore]
  · refine .inl ?_
    simp only [World.storeItem, hup, hlen, if_neg hexp]

theorem Uploading.emit_request {old : ℕ → List MissionItem} {taken : List Msg} {w : World}
    {seq u c : ℕ} (hcount : acks taken + acks w.pending = c)
    (hphase : Phase items t c (w.request seq u)) (hothers : ∀ u, u ≠ t → w.store u = old u)
    (hsilent : OnAir (fun m => m.getType ≠ .missionCount ∧ m.getType ≠ .missionItemInt) w) :
    Uploading items t old taken (w.request seq u) := by
  obtain ⟨hack, hquiet⟩ := w.requestMsg_getType seq u
  refine ⟨⟨c, ?_, hphase⟩, hothers, onAir_emit hsilent hquiet⟩
  rw [World.request, World.acks_pending_emit, acks_singleton hack]
  exact hcount

theorem Uploading.setStore_others {old : ℕ → List MissionItem} {w : World}
    (hothers : ∀ u, u ≠ t → w.store u = old u) (stored : List MissionItem) (u : ℕ) (hu : u ≠ t) :
    (w.setStore t stored).store u = old u := by
  simp [World.setStore, hu, hothers u hu]

/-- The autopilot handles one message of an upload. -/
theorem Uploading.receive (hn : Numbered items t) (hne : items ≠ [])
    {old : ℕ → List MissionItem} {taken : List Msg} {w : World}
    (hI : Uploading items t old taken w) {m : Msg} {ms : List Msg}
    (hq : w.toAutopilot = m :: ms) :
    Uploading items t old taken ({ w with toAutopilot := ms }.receive m) := by
  obtain ⟨⟨c, hc, hphase⟩, hothers, hsilent⟩ := hI
  cases hphase with
  | @fresh _ before new hto hbefore hnew hup =>
    cases before with
    | nil =>
      obtain ⟨rfl, rfl⟩ : m = _ ∧ ms = new := by simpa [hq] using hto
      refine Uploading.emit_request hc ?_ (setStore_others hothers []) hsilent
      refine .running (k := 0) (List.length_pos_iff.mpr hne) ?_ rfl hnew
      simp [World.request, World.emit, World.setStore]
    | cons m' before =>
      obtain ⟨rfl, rfl⟩ : m = m' ∧ ms = _ := by simpa [hq] using hto
      have hnone : w.upload = none := hup.resolve_left (by simp)
      obtain ⟨item, rfl⟩ : ∃ item, m = .missionItemInt item := by
        cases m <;> simp_all [Msg.getType]
      simp only [World.receive, World.storeItem, hnone]
      exact ⟨⟨0, hc, .fresh rfl (fun m hm => hbefore m (by simp [hm])) hnew (.inr rfl)⟩,
        hothers, hsilent⟩
  | @running _ k hk hstore hup hto =>
    have hms : ∀ m ∈ ms, ItemMsg items m := fun m hm => hto m (by simp [hq, hm])
    obtain ⟨item, hitem, rfl⟩ := hto m (by simp [hq])
    rw [World.receive]
    rcases World.storeItem_running (w := { w with toAutopilot := ms }) hn hk hstore hup hitem with
      heq | ⟨hlt, heq⟩ | ⟨hlast, heq⟩
    · rw [heq]
      exact ⟨⟨0, hc, .running hk hstore hup hms⟩, hothers, hsilent⟩
    · rw [heq]
      refine Uploading.emit_request hc ?_ (setStore_others hothers _) hsilent
      refine .running hlt ?_ hup hms
      simp [World.request, World.emit, World.setStore]
    · rw [heq]
      refine ⟨⟨1, ?_, ?_⟩, setStore_others hothers _, onAir_emit hsilent (by simp [Msg.getType])⟩
      · rw [World.acks_pending_emit, acks_singleton_ack, ← Nat.add_assoc]
        exact congrArg (· + 1) hc
      · refine .stored ?_ rfl hms
        simp [World.emit, World.setStore]
  | stored hstore hup hto =>
    have hms : ∀ m ∈ ms, ItemMsg items m := fun m hm => hto m (by simp [hq, hm])
    obtain ⟨item, hitem, rfl⟩ := hto m (by simp [hq])
    simp only [World.receive, World.storeItem, hup]
    exact ⟨⟨1, hc, .stored hstore rfl hms⟩, hothers, hsilent⟩

theorem Phase.congr {c : ℕ} {w w' : World} (h : Phase items t c w)
    (hto : w'.toAutopilot = w.toAutopilot) (hstore : w'.store = w.store)
    (hup : w'.upload = w.upload) : Phase items t c w' := by
  cases h with
  | fresh h1 h2 h3 h4 => exact .fresh (hto ▸ h1) h2 h3 (hup ▸ h4)
  | running h1 h2 h3 h4 => exact .running h1 (hstore ▸ h2) (hup ▸ h3) (hto ▸ h4)
  | stored h1 h2 h3 => exact .stored (hstore ▸ h1) (hup ▸ h2) (hto ▸ h3)

theorem Phase.send {c : ℕ} {w : World} (h : Phase items t c w) {m : Msg}
    (hm : ItemMsg items m) :
    Phase items t c { w with toAutopilot := w.toAutopilot ++ [m] } := by
  have hsnoc : ∀ {ms}, (∀ m ∈ ms, ItemMsg items m) → ∀ m' ∈ ms ++ [m], ItemMsg items m' := by
    intro ms hms m' hm'
    rcases List.mem_append.mp hm' with hm' | hm'
    · exact hms m' hm'
    · exact List.mem_singleton.mp hm' ▸ hm
  cases h with
  | fresh h1 h2 h3 h4 => exact .fresh (by simp [h1]) h2 (hsnoc h3) h4
  | running h1 h2 h3 h4 => exact .running h1 h2 h3 (hsnoc h4)
  | stored h1 h2 h3 => exact .stored h1 h2 (hsnoc h3)

theorem Uploading.move (hn : Numbered items t) (hne : items ≠ [])
    {old : ℕ → List MissionItem} (mv : Move) (taken : List Msg) (w : World)
    (hI : Uploading items t old taken w) : Uploading items t old taken (w.move mv) := by
  rcases w.move_cases mv with ⟨m, ms, hq, heq⟩ | hs
  · rw [heq]
    exact hI.receive hn hne hq
  · obtain ⟨hto, hstore, hup⟩ := hs.frame
    obtain ⟨c, hc, hphase⟩ := hI.phase
    exact ⟨⟨c, hs.acks_pending ▸ hc, hphase.congr hto hstore hup⟩,
      fun u hu => hstore ▸ hI.others u hu,
      hs.onAir hI.silent fun m hm => (isTelemetry_getType hm).2⟩

theorem Uploading.send {old : ℕ → List MissionItem} (m : Msg) (taken : List Msg) (w : World)
    (hm : ItemMsg items m) (hI : Uploading items t old taken w) :
    Uploading items t old taken { w with toAutopilot := w.toAutopilot ++ [m] } := by
  obtain ⟨c, hc, hphase⟩ := hI.phase
  exact ⟨⟨c, hc, hphase.send hm⟩, hI.others, hI.silent⟩

theorem Uploading.take {old : ℕ → List MissionItem} (got rest taken : List Msg) (w : World)
    (hq : w.inbox = got ++ rest) (hI : Uploading items t old taken w) :
    Uploading items t old (taken ++ got) { w with inbox := rest } := by
  obtain ⟨c, hc, hphase⟩ := hI.phase
  refine ⟨⟨c, ?_, hphase.congr rfl rfl rfl⟩, hI.others, fun m hm => hI.silent m ?_⟩
  · rw [← hc]
    simp only [World.pending, hq, acks_append]
    omega
  · simp only [World.mem_air, hq, List.mem_append] at hm ⊢
    tauto

/-- An autopilot that is done with what came before and owes no acknowledgement. -/
structure Idle (w : World) : Prop where
  noAck : acks w.pending = 0
  leftover : ∀ m ∈ w.toAutopilot, m.getType = .missionItemInt
  upload : w.toAutopilot = [] ∨ w.upload = none
  silent : OnAir (fun m => m.getType ≠ .missionCount ∧ m.getType ≠ .missionItemInt) w

theorem Idle.move (mv : Move) {w₀ : World} (w : World) (hI : Idle w ∧ w.store = w₀.store) :
    Idle (w.move mv) ∧ (w.move mv).store = w₀.store := by
  obtain ⟨⟨hack, hleft, hup, hsilent⟩, hstore₀⟩ := hI
  rcases w.move_cases mv with ⟨m, ms, hq, heq⟩ | hs
  · have hnone : w.upload = none := hup.resolve_left (by simp [hq])
    obtain ⟨item, rfl⟩ : ∃ item, m = .missionItemInt item := by
      have := hleft m (by simp [hq])
      cases m <;> simp_all [Msg.getType]
    rw [heq]
    simp only [World.receive, World.storeItem, hnone]
    exact ⟨⟨hack, fun m hm => hleft m (by simp [hq, hm]), .inr rfl, hsilent⟩, hstore₀⟩
  · obtain ⟨hto, hstore, hup'⟩ := hs.frame
    exact ⟨⟨hs.acks_pending ▸ hack, hto ▸ hleft, by rw [hto, hup']; exact hup,
      hs.onAir hsilent fun m hm => (isTelemetry_getType hm).2⟩, hstore ▸ hstore₀⟩

theorem Idle.take {w : World} {got rest : List Msg} (hq : w.inbox = got ++ rest) (hI : Idle w) :
    Idle { w with inbox := rest } := by
  refine ⟨?_, hI.leftover, hI.upload, fun m hm => hI.silent m ?_⟩
  · have := hI.noAck
    simp only [World.pending, hq, acks_append] at this ⊢
    omega
  · simp only [World.mem_air, hq, List.mem_append] at hm ⊢
    tauto

/-- However an upload against an idle autopilot ends, its invariant holds then. -/
theorem uploadMission_uploading (conn : Conn) (hne : items ≠ []) (hn : Numbered items t)
    (s : ClosedLoop) (hs : Idle s.state) :
    let o := (uploadMission conn items t).run closedLoop s
    Uploading items t s.state.store (takenMsgs o.events) o.state.state := by
  have hidle := autopilot.moved_invariant (I := fun w => Idle w ∧ w.store = s.state.store)
    (fun mv w => Idle.move mv w) ⟨hs, rfl⟩
  obtain ⟨⟨hack, hleft, hup, hsilent⟩, hstore⟩ := hidle
  have hfresh : Uploading items t s.state.store []
      (closedLoop (.send conn (.missionCount items.length t)) s).2.1.state := by
    rw [autopilot.link_send]
    refine ⟨⟨0, by simpa [World.pending, autopilot] using hack, .fresh rfl hleft (by simp) hup⟩,
      fun u _ => congrFun hstore u, hsilent⟩
  have hrest := autopilot.run_taken (I := Uploading items t s.state.store)
    (Uploading.move hn hne) (fun _ => Uploading.send) Uploading.take (calls_uploadItems conn) []
    _ hfresh
  simp only [uploadMission_eq hne, Program.run_bind, run_send isLink_closedLoop,
    Outcome.andThen_mk_ok]
  simpa using hrest

/-- An upload against an idle autopilot that returns has stored the items, has
left the other lists alone, and leaves the autopilot idle again. -/
theorem uploadMission_stores (conn : Conn) (hne : items ≠ []) (hn : Numbered items t)
    (s : ClosedLoop) (hs : Idle s.state)
    (hok : ((uploadMission conn items t).run closedLoop s).result = .ok ()) :
    let w := ((uploadMission conn items t).run closedLoop s).state.state
    w.store = Function.update s.state.store t items ∧ w.upload = none ∧ Idle w := by
  dsimp only
  obtain ⟨⟨c, hc, hphase⟩, hothers, hsilent⟩ := uploadMission_uploading conn hne hn s hs
  have hpos : 0 < acks (takenMsgs ((uploadMission conn items t).run closedLoop s).events) := by
    rcases (uploadMission_trace isLink_closedLoop conn hne t s).ackEnd with
      ⟨before, ty, -, hev, -, -⟩ | ⟨x, herr, -⟩
    · simp [hev]
    · simp [hok] at herr
  cases hphase with
  | fresh _ _ _ _ => omega
  | running _ _ _ _ => omega
  | stored hstore hup hto =>
    refine ⟨?_, hup, ?_, ?_, .inr hup, hsilent⟩
    · funext u
      by_cases hu : u = t
      · subst hu
        simpa using hstore
      · simpa [hu] using hothers u hu
    · omega
    · intro m hm
      obtain ⟨item, -, rfl⟩ := hto m hm
      rfl

end Upload

section ReadBack

variable {items : List MissionItem} {t : ℕ}

/-- A count or an item that a store with these items can have sent. -/
def Listed (items : List MissionItem) (t : ℕ) (m : Msg) : Prop :=
  (∀ c, m = .missionCount c t → c = items.length) ∧
    ∀ item, m = .missionItemInt item → item ∈ items

/-- The invariant of a download: the store does not change, and all that was
taken or may still be taken comes from it. -/
structure Serving (items : List MissionItem) (t : ℕ) (taken : List Msg) (w : World) : Prop where
  store : w.store t = items
  upload : w.upload = none
  requests : ∀ m ∈ w.toAutopilot, m.getType = .missionItemInt ∨ DownloadMsg t m
  answers : OnAir (Listed items t) w
  seen : ∀ m ∈ taken, Listed items t m

theorem listed_of_getType {m : Msg}
    (hm : m.getType ≠ .missionCount ∧ m.getType ≠ .missionItemInt) : Listed items t m :=
  ⟨fun _ hc => absurd (hc ▸ rfl) hm.1, fun _ hi => absurd (hi ▸ rfl) hm.2⟩

theorem Serving.receive {taken : List Msg} {w : World} (hI : Serving items t taken w) {m : Msg}
    {ms : List Msg} (hq : w.toAutopilot = m :: ms) :
    Serving items t taken ({ w with toAutopilot := ms }.receive m) := by
  obtain ⟨hstore, hup, hreq, hans, hseen⟩ := hI
  have hms : ∀ m ∈ ms, m.getType = .missionItemInt ∨ DownloadMsg t m :=
    fun m hm => hreq m (by simp [hq, hm])
  rcases hreq m (by simp [hq]) with hitem | rfl | ⟨k, rfl⟩ | rfl
  · obtain ⟨item, rfl⟩ : ∃ item, m = .missionItemInt item := by
      cases m <;> simp_all [Msg.getType]
    simp only [World.receive, World.storeItem, hup]
    exact ⟨hstore, rfl, hms, hans, hseen⟩
  · refine ⟨hstore, hup, hms, onAir_emit hans ⟨fun c hc => ?_, fun item hi => ?_⟩, hseen⟩
    · simpa [hstore, eq_comm] using hc
    · simp at hi
  · cases hk : items[k]? with
    | none =>
      simp only [World.receive, hstore, hk]
      exact ⟨hstore, hup, hms, hans, hseen⟩
    | some item =>
      simp only [World.receive, hstore, hk]
      refine ⟨hstore, hup, hms, onAir_emit hans ⟨fun c hc => ?_, fun item' hi => ?_⟩, hseen⟩
      · simp at hc
      · obtain rfl : item = item' := by simpa using hi
        exact List.mem_of_getElem? hk
  · exact ⟨hstore, hup, hms, hans, hseen⟩

theorem Serving.move (mv : Move) (taken : List Msg) (w : World)
    (hI : Serving items t taken w) : Serving items t taken (w.move mv) := by
  rcases w.move_cases mv with ⟨m, ms, hq, heq⟩ | hs
  · rw [heq]
    exact hI.receive hq
  · obtain ⟨hto, hstore, hup⟩ := hs.frame
    exact ⟨hstore ▸ hI.store, hup ▸ hI.upload, hto ▸ hI.requests,
      hs.onAir hI.answers fun m hm => listed_of_getType (isTelemetry_getType hm).2, hI.seen⟩

theorem Serving.send (m : Msg) (taken : List Msg) (w : World) (hm : DownloadMsg t m)
    (hI : Serving items t taken w) :
    Serving items t taken { w with toAutopilot := w.toAutopilot ++ [m] } := by
  refine ⟨hI.store, hI.upload, fun m' hm' => ?_, hI.answers, hI.seen⟩
  rcases List.mem_append.mp hm' with hm' | hm'
  · exact hI.requests m' hm'
  · exact .inr (List.mem_singleton.mp hm' ▸ hm)

theorem Serving.take (got rest taken : List Msg) (w : World) (hq : w.inbox = got ++ rest)
    (hI : Serving items t taken w) : Serving items t (taken ++ got) { w with inbox := rest } := by
  have hair : ∀ m, m ∈ got ∨ m ∈ ({ w with inbox := rest } : World).air → m ∈ w.air := by
    intro m hm
    simp only [World.mem_air, hq, List.mem_append] at hm ⊢
    tauto
  refine ⟨hI.store, hI.upload, hI.requests, fun m hm => hI.answers m (hair m (.inr hm)), ?_⟩
  intro m hm
  rcases List.mem_append.mp hm with hm | hm
  · exact hI.seen m hm
  · exact hI.answers m (hair m (.inl hm))

theorem Downloaded.eq_store (hn : Numbered items t) {conn : Conn} {got : List MissionItem}
    {events : List LinkEvent} (hd : Downloaded conn t got events)
    (hseen : ∀ m ∈ takenMsgs events, Listed items t m) : got = items := by
  have hlen : got.length = items.length := by
    obtain ⟨before, rest, htaken, -⟩ := hd.firstCount
    exact (hseen (.missionCount got.length t) (by simp [htaken])).1 _ rfl
  refine List.ext_getElem hlen fun i hi hi' => ?_
  obtain ⟨hseq, -, before, rest, hev, -⟩ := hd.item i got[i] (by simp [hi])
  have hmem : got[i] ∈ items :=
    (hseen (.missionItemInt got[i]) (by simp [hev])).2 _ rfl
  have hget := hn.mem hmem
  rw [hseq] at hget
  simpa [hi', eq_comm] using hget

theorem downloadMission_serves (conn : Conn) (hn : Numbered items t) (s : ClosedLoop)
    (hs : Serving items t [] s.state) :
    let d := (downloadMission conn t).run closedLoop s
    Serving items t [] d.state.state ∧ ∀ L, d.result = .ok L → L = items.map some := by
  intro d
  have hrun := autopilot.run_taken (I := Serving items t) Serving.move (fun _ => Serving.send)
    Serving.take (calls_downloadMission conn t) [] s hs
  refine ⟨{ hrun with seen := by simp }, fun L hL => ?_⟩
  rcases downloadMission_run isLink_closedLoop conn t s with ⟨got, hok, hd⟩ | ⟨message, herr, -⟩
  · obtain rfl : got.map some = L := by simpa [d, hok] using hL
    rw [hd.eq_store hn (by simpa using hrun.seen)]
  · simp [d, herr] at hL

theorem verifyRoundTrip_serves (conn : Conn) (hn : Numbered items t) (s : ClosedLoop)
    (hs : Serving items t [] s.state) {L : List (Option MissionItem)}
    (hL : ((downloadMission conn t).run closedLoop s).result = .ok L) :
    ((verifyRoundTrip conn items t).run closedLoop s).result = .ok true := by
  obtain ⟨-, -, b, hb, hiff⟩ := verifyRoundTrip_run isLink_closedLoop conn items t s
  rw [hb, hiff.mpr ⟨items, ?_, List.forall₂_same.mpr fun item _ => ItemMatch.refl item⟩]
  rw [hL, (downloadMission_serves conn hn s hs).2 L hL]

/-- Against a faithful autopilot and an empty link, an upload that returns has
stored the items; a download after it that returns gives exactly these, and
then a verification passes, also when it follows another download. -/
theorem uploadMission_downloadMission (conn : Conn) (items : List MissionItem) (t : ℕ)
    (hne : items ≠ []) (hn : Numbered items t) (s : ClosedLoop)
    (hlink : s.state.inbox = [] ∧ s.state.toClient = [] ∧ s.state.toAutopilot = [] ∧
      s.state.emitted = []) :
    let u := (uploadMission conn items t).run closedLoop s
    let d := (downloadMission conn t).run closedLoop u.state
    let d' := (downloadMission conn t).run closedLoop d.state
    u.result = .ok () →
      u.state.state.store t = items ∧
      (∀ L, d.result = .ok L → L = items.map some ∧
        ((verifyRoundTrip conn items t).run closedLoop u.state).result = .ok true) ∧
      (∀ L, d'.result = .ok L → L = items.map some ∧
        ((verifyRoundTrip conn items t).run closedLoop d.state).result = .ok true) := by
  intro u d d' hok
  obtain ⟨hin, hcl, hap, hem⟩ := hlink
  have hidle : Idle s.state := by
    constructor
    · simp [World.pending, hin, hcl]
    · simp [hap]
    · exact .inl hap
    · simp [OnAir, World.air, hin, hcl, hem]
  obtain ⟨hstore, hup, hidle'⟩ := uploadMission_stores conn hne hn s hidle hok
  have hst : u.state.state.store t = items := by simpa using congrFun hstore t
  have hserve : Serving items t [] u.state.state :=
    ⟨hst, hup, fun m hm => .inl (hidle'.leftover m hm),
      fun m hm => listed_of_getType (hidle'.silent m hm), by simp⟩
  obtain ⟨hserve', hd⟩ := downloadMission_serves conn hn u.state hserve
  refine ⟨hst, fun L hL => ⟨hd L hL, verifyRoundTrip_serves conn hn u.state hserve hL⟩,
    fun L hL => ⟨(downloadMission_serves conn hn d.state hserve').2 L hL,
      verifyRoundTrip_serves conn hn d.state hserve' hL⟩⟩

def twoWaypoints : List MissionItem :=
  [{ seq := 0, frame := 5, command := 16 }, { seq := 1, frame := 5, command := 16, x := 7 }]

/-- Every message passes at once, and the first request is delivered twice. -/
def promptLoop : ClosedLoop :=
  let pass : Turn Move := ⟨[.handle, .deliver], 4⟩
  let twice : Turn Move := ⟨[.handle, .deliver, .again 0, .deliver], 4⟩
  ⟨⟨[], [], [], [], fun _ => [], none, false, false⟩,
    pass :: pass :: twice :: List.replicate 22 pass⟩

/-- Two waypoints go up and come back. -/
theorem uploadMission_downloadMission_twoWaypoints :
    let u := (uploadMission ⟨1, 1⟩ twoWaypoints 0).run closedLoop promptLoop
    u.result = .ok () ∧ u.state.state.store 0 = twoWaypoints ∧
      ((downloadMission ⟨1, 1⟩ 0).run closedLoop u.state).result = .ok (twoWaypoints.map some) ∧
      ((verifyRoundTrip ⟨1, 1⟩ twoWaypoints 0).run closedLoop u.state).result = .ok true := by
  have hn : Numbered twoWaypoints 0 := by
    intro i hi
    match i, hi with
    | 0, _ => exact ⟨rfl, rfl⟩
    | 1, _ => exact ⟨rfl, rfl⟩
  have hok : ((uploadMission ⟨1, 1⟩ twoWaypoints 0).run closedLoop promptLoop).result = .ok () := by
    decide +kernel
  have hd : ((downloadMission ⟨1, 1⟩ 0).run closedLoop ((uploadMission ⟨1, 1⟩ twoWaypoints 0).run
      closedLoop promptLoop).state).result = .ok (twoWaypoints.map some) := by
    decide +kernel
  obtain ⟨hstore, hdown, -⟩ := uploadMission_downloadMission ⟨1, 1⟩ twoWaypoints 0
    (by simp [twoWaypoints]) hn promptLoop ⟨rfl, rfl, rfl, rfl⟩ hok
  exact ⟨hok, hstore, hd, (hdown _ hd).2⟩

end ReadBack

end MowerRover.Mavlink
