import MowerRover.Mavlink.MissionDownload
import MowerRover.Mavlink.MissionUpload

/-!
# Round-trip verification and clearing

`verifyRoundTrip` never raises against a link: it answers whether the download
completed and every field agrees with what was expected. `clearMission` returns
exactly when the clear was acknowledged for its own type and the list that is
read back is empty, up to the home point of a mission.
-/

namespace MowerRover.Mavlink

open Effects Numeric

/-- Two floats that the comparison does not tell apart. -/
def Close (a b : PyFloat) : Prop := a.exceeds tolerance b = false

/-- Integer fields are equal, float fields agree within the tolerance. -/
structure ItemMatch (exp got : MissionItem) : Prop where
  seq : exp.seq = got.seq
  frame : exp.frame = got.frame
  command : exp.command = got.command
  param1 : Close exp.param1 got.param1
  param2 : Close exp.param2 got.param2
  param3 : Close exp.param3 got.param3
  param4 : Close exp.param4 got.param4
  x : exp.x = got.x
  y : exp.y = got.y
  z : Close exp.z got.z
  missionType : exp.missionType = got.missionType
  autocontinue : exp.autocontinue = got.autocontinue
  current : exp.current = got.current

theorem close_refl (a : PyFloat) : Close a a := PyFloat.exceeds_self (by norm_num [tolerance]) a

theorem ItemMatch.refl (item : MissionItem) : ItemMatch item item :=
  ⟨rfl, rfl, rfl, close_refl _, close_refl _, close_refl _, close_refl _, rfl, rfl,
    close_refl _, rfl, rfl, rfl⟩

@[simp] theorem reportIf_eq_nil {differs : Bool} {field : ItemField} :
    reportIf differs field = [] ↔ differs = false := by
  cases differs <;> simp [reportIf]

theorem fieldMismatches_eq_nil {exp got : MissionItem} :
    fieldMismatches exp got = [] ↔ ItemMatch exp got := by
  simp only [fieldMismatches, List.flatten_eq_nil_iff, List.forall_mem_cons, reportIf_eq_nil,
    bne_eq_false_iff_eq, List.not_mem_nil, false_imp_iff, implies_true, and_true]
  constructor
  · rintro ⟨h1, h2, h3, h4, h5, h6, h7, h8, h9, h10, h11, h12, h13⟩
    exact ⟨h1, h2, h3, h4, h5, h6, h7, h8, h9, h10, h11, h12, h13⟩
  · rintro ⟨h1, h2, h3, h4, h5, h6, h7, h8, h9, h10, h11, h12, h13⟩
    exact ⟨h1, h2, h3, h4, h5, h6, h7, h8, h9, h10, h11, h12, h13⟩

theorem mismatches_zip {expected got : List MissionItem} (hlen : got.length = expected.length) :
    ∃ found, mismatches (expected.zip (got.map some)) = .ok found ∧
      (found = [] ↔ List.Forall₂ ItemMatch expected got) := by
  induction expected generalizing got with
  | nil =>
    obtain rfl := List.length_eq_zero_iff.mp hlen
    exact ⟨[], rfl, by simp⟩
  | cons exp expected ih =>
    cases got with
    | nil => simp at hlen
    | cons item got =>
      obtain ⟨found, hfound, hiff⟩ := ih (by simpa using hlen)
      refine ⟨fieldMismatches exp item ++ found, ?_, ?_⟩
      · simp [mismatches, hfound]
      · simp [fieldMismatches_eq_nil, hiff]

variable {σ : Type} {h : Handler linkSignature σ LinkEvent}

theorem map_some_inj {α : Type} {a b : List α} : a.map some = b.map some ↔ a = b :=
  (List.map_injective_iff.mpr (Option.some_injective α)).eq_iff

/-- Verification is a download and a comparison, and always gives an answer. -/
theorem verifyRoundTrip_run (hl : IsLink h) (conn : Conn) (expected : List MissionItem) (t : ℕ)
    (s : σ) :
    let d := (downloadMission conn t).run h s
    let v := (verifyRoundTrip conn expected t).run h s
    v.state = d.state ∧ v.events = d.events ∧ ∃ b, v.result = .ok b ∧
      (b = true ↔ ∃ got, d.result = .ok (got.map some) ∧
        List.Forall₂ ItemMatch expected got) := by
  simp only [verifyRoundTrip, Program.run_bind, Program.run_tryCatch, Program.run_map]
  rcases downloadMission_run hl conn t s with ⟨got, hok, -⟩ | ⟨message, herr, -⟩
  · rw [Outcome.andThen_ok hok]
    simp only [Outcome.after, List.append_nil, Outcome.orElse, Outcome.andThen_mk_ok, hok,
      Except.ok.injEq]
    simp only [map_some_inj, exists_eq_left']
    by_cases hlen : got.length = expected.length
    · obtain ⟨found, hfound, hiff⟩ := mismatches_zip hlen
      simp [hlen, hfound, hiff]
    · have hno : ¬ List.Forall₂ ItemMatch expected got := fun hf => hlen hf.length_eq.symm
      simp [hlen, hno]
  · rw [Outcome.andThen_error herr]
    simp [Outcome.orElse, Outcome.after, herr]

/-- How many items a cleared list may still hold: the home point of a mission. -/
def clearedLength (t : ℕ) : ℕ := if t = 0 then 1 else 0

theorem verifyCleared_run (hl : IsLink h) (conn : Conn) (t : ℕ) (s : σ) :
    let d := (downloadMission conn t).run h s
    let v := (verifyCleared conn t).run h s
    v.state = d.state ∧ v.events = d.events ∧ (v.result = .ok () ↔
      ∃ got : List MissionItem, d.result = .ok (got.map some) ∧ got.length ≤ clearedLength t) := by
  simp only [verifyCleared, Program.run_bind, Program.run_tryCatch]
  rcases downloadMission_run hl conn t s with ⟨got, hok, -⟩ | ⟨message, herr, -⟩
  · rw [Outcome.andThen_ok hok]
    simp only [hok, Except.ok.injEq, map_some_inj, exists_eq_left']
    by_cases ht : t = 0
    · by_cases hlen : got.length ≤ 1 <;>
        simp [ht, hlen, clearedLength, Outcome.orElse, Outcome.after]
    · by_cases hlen : got = [] <;>
        simp [ht, hlen, clearedLength, Outcome.orElse, Outcome.after]
  · rw [Outcome.andThen_error herr]
    simp [Outcome.orElse, Outcome.after, herr]

/-- The autopilot acknowledges the clear of this type with an acceptance, and
what it lists afterwards is empty. -/
def ClearConfirmed (h : Handler linkSignature σ LinkEvent) (conn : Conn) (t : ℕ) (s : σ) : Prop :=
  let w := (waitWithin 5 [.missionAck] (ackOf t)).run h (h (.send conn (.missionClearAll t)) s).2.1
  w.result = .ok (some 0) ∧ ∃ got : List MissionItem,
    ((downloadMission conn t).run h w.state).result = .ok (got.map some) ∧
      got.length ≤ clearedLength t

theorem clearMission_ok_iff (hl : IsLink h) (conn : Conn) (t : ℕ) (s : σ) :
    ((clearMission conn t).run h s).result = .ok () ↔ ClearConfirmed h conn t s := by
  obtain ⟨res, hres, -⟩ := waitWithin_waited hl 5 [.missionAck] (ackOf t)
    (h (.send conn (.missionClearAll t)) s).2.1
  simp only [clearMission, ClearConfirmed, Program.run_bind, run_send hl, Outcome.andThen_mk_ok,
    Outcome.andThen_ok hres, Outcome.after_result, hres, Except.ok.injEq]
  cases res with
  | none => simp
  | some type =>
    by_cases htype : type = 0
    · subst htype
      simpa using (verifyCleared_run hl conn t _).2.2
    · simp [htype]

def ItemMsg (items : List MissionItem) (m : Msg) : Prop :=
  ∃ item ∈ items, m = .missionItemInt item

def UploadMsg (items : List MissionItem) (t : ℕ) (m : Msg) : Prop :=
  m = .missionCount items.length t ∨ ItemMsg items m

def DownloadMsg (t : ℕ) (m : Msg) : Prop :=
  m = .missionRequestList t ∨ (∃ k, m = .missionRequestInt k t) ∨ m = .missionAck 0 t

def ClearMsg (t : ℕ) (m : Msg) : Prop := m = .missionClearAll t ∨ DownloadMsg t m

variable {conn : Conn} {items : List MissionItem} {t : ℕ}

theorem calls_requestLoop (n : ℕ) (sent : Finset ℕ) :
    (requestLoop conn items n sent).Calls (SendsOnly (ItemMsg items)) := by
  induction n generalizing sent with
  | zero =>
    unfold requestLoop
    split_ifs <;> simp
  | succ n ih =>
    have hanswer : ∀ seq, (answerRequest conn items seq
        (requestLoop conn items n (insert seq sent))).Calls (SendsOnly (ItemMsg items)) := by
      intro seq
      unfold answerRequest
      split_ifs with hs
      · exact (calls_send ⟨items[seq], by simp, rfl⟩).bind fun _ => ih _
      · simp
    unfold requestLoop
    split_ifs
    · refine (calls_recvMatch _ _).bind fun msg => ?_
      cases msg with
      | none => exact ih sent
      | some m =>
        cases m with
        | missionAck type ty => by_cases htype : type = 0 <;> simp [htype]
        | missionRequestInt seq ty => exact hanswer seq
        | missionRequest seq ty => exact hanswer seq
        | _ => exact ih sent
    · simp

/-- The part of an upload after the count has been sent. -/
def uploadItems (conn : Conn) (items : List MissionItem) : LinkM Unit := do
  let rounds ← polls 10
  if ← requestLoop conn items rounds ∅ then pure ()
  else
    match ← waitWithin 5 [.missionAck] ackType with
    | some type =>
      if type = 0 then pure ()
      else throw (.missionUpload s!"Mission upload rejected with final ACK type {type}")
    | none => throw (.missionUpload "Timeout waiting for final MISSION_ACK after 5.0s")

theorem uploadMission_eq (hne : items ≠ []) : uploadMission conn items t =
    (send conn (.missionCount items.length t) >>= fun _ => uploadItems conn items) := by
  simp only [uploadMission, if_neg hne]
  rfl

theorem calls_uploadItems (conn : Conn) : (uploadItems conn items).Calls
    (SendsOnly (ItemMsg items)) := by
  refine (calls_polls _ _).bind fun n => (calls_requestLoop n ∅).bind fun ended => ?_
  cases ended with
  | true => simp
  | false =>
    refine (calls_waitWithin _ _ _ _).bind fun res => ?_
    match res with
    | none => simp
    | some type => by_cases htype : type = 0 <;> simp [htype]

theorem calls_uploadMission : (uploadMission conn items t).Calls
    (SendsOnly (UploadMsg items t)) := by
  by_cases hne : items = []
  · simp [uploadMission, hne]
  · rw [uploadMission_eq hne]
    exact (calls_send (.inl rfl)).bind fun _ =>
      (calls_uploadItems conn).mono (SendsOnly.mono fun _ => .inr)

theorem calls_requestItems {kind : Msg → Prop} (hkind : ∀ seq, kind (.missionRequestInt seq t))
    (seqs : List ℕ) (got : List (Option MissionItem)) :
    (requestItems conn t seqs got).Calls (SendsOnly kind) := by
  induction seqs generalizing got with
  | nil => simp [requestItems]
  | cons seq seqs ih =>
    refine (calls_send (hkind seq)).bind fun _ =>
      (calls_waitWithin _ _ _ _).bind fun res => ?_
    cases res with
    | none => simp
    | some item => exact ih _

/-- The part of a download after the list has been asked for. -/
def receiveList (conn : Conn) (t : ℕ) : LinkM (List (Option MissionItem)) := do
  match ← waitWithin 10 [.missionCount] (countOf t) with
  | none => throw (.missionDownload "Timeout waiting for MISSION_COUNT after 10.0s")
  | some itemCount =>
    if itemCount = 0 then pure []
    else do
      let items ← requestItems conn t (List.range itemCount) (List.replicate itemCount none)
      send conn (.missionAck 0 t)
      pure items

theorem downloadMission_eq : downloadMission conn t =
    (send conn (.missionRequestList t) >>= fun _ => receiveList conn t) := rfl

theorem calls_receiveList {kind : Msg → Prop} (hkind : ∀ seq, kind (.missionRequestInt seq t))
    (hack : kind (.missionAck 0 t)) : (receiveList conn t).Calls (SendsOnly kind) := by
  refine (calls_waitWithin _ _ _ _).bind fun res => ?_
  cases res with
  | none => simp
  | some n =>
    by_cases hn : n = 0
    · simp [hn]
    · simp only [if_neg hn]
      exact (calls_requestItems hkind _ _).bind fun got => (calls_send hack).bind fun _ => by simp

theorem calls_downloadMission (conn : Conn) (t : ℕ) :
    (downloadMission conn t).Calls (SendsOnly (DownloadMsg t)) :=
  (calls_send (.inl rfl)).bind fun _ =>
    calls_receiveList (fun seq => .inr (.inl ⟨seq, rfl⟩)) (.inr (.inr rfl))

/-- The part of a clear after the command has been sent. -/
def confirmClear (conn : Conn) (t : ℕ) : LinkM Unit := do
  match ← waitWithin 5 [.missionAck] (ackOf t) with
  | none => throw (.missionUpload "Timeout waiting for MISSION_ACK after clear operation")
  | some type =>
    if type = 0 then verifyCleared conn t
    else throw (.missionUpload s!"Mission clear rejected with ACK type {type}")

theorem clearMission_eq : clearMission conn t =
    (send conn (.missionClearAll t) >>= fun _ => confirmClear conn t) := rfl

theorem calls_confirmClear (conn : Conn) (t : ℕ) :
    (confirmClear conn t).Calls (SendsOnly (DownloadMsg t)) := by
  have hverify : (verifyCleared conn t).Calls (SendsOnly (DownloadMsg t)) := by
    refine Program.Calls.tryCatch ((calls_downloadMission conn t).bind fun got => ?_) fun x => ?_
    · split_ifs <;> simp
    · cases x <;> simp
  refine (calls_waitWithin _ _ _ _).bind fun res => ?_
  match res with
  | none => simp
  | some type =>
    by_cases htype : type = 0
    · simpa [htype] using hverify
    · simp [htype]

theorem calls_clearMission : (clearMission conn t).Calls (SendsOnly (ClearMsg t)) :=
  (calls_send (.inl rfl)).bind fun _ =>
    (calls_confirmClear conn t).mono (SendsOnly.mono fun _ => .inr)

end MowerRover.Mavlink
