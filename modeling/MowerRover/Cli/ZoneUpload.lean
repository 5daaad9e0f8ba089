import MowerRover.Mavlink.Answers

/-!
# Uploading a zone

`_upload_zone_atomically` uploads the mission, the fence and the rally points,
reads all three back, and on any exception clears what is there. Two things
keep it from being the transaction its callers take it for: the answers of the
three verifications are dropped, and the three clears stand in one `try`, so
that the first one that fails suppresses the others. Whether the lists have been
verified is read off the events of the run: three complete downloads at its end
whose items match.
-/

namespace MowerRover.Cli

open Effects Mavlink

def uploadZoneAtomically (conn : Conn) (missionItems fenceItems rallyItems : List MissionItem) :
    LinkM Unit :=
  tryCatch
    (do
      uploadMission conn missionItems 0
      uploadMission conn fenceItems 1
      uploadMission conn rallyItems 2
      -- the three answers are not looked at
      let _ ← verifyRoundTrip conn missionItems 0
      let _ ← verifyRoundTrip conn fenceItems 1
      let _ ← verifyRoundTrip conn rallyItems 2
      pure ())
    fun _ => do
      tryCatch
        (do
          clearMission conn 0
          clearMission conn 1
          clearMission conn 2)
        fun _ => pure ()
      throw (.zoneUpload "Zone upload FAILED. All missions cleared for safety.")

/-- The uploads of the first half of the attempt. -/
def uploads (conn : Conn) (missionItems fenceItems rallyItems : List MissionItem) :
    LinkM Unit := do
  uploadMission conn missionItems 0
  uploadMission conn fenceItems 1
  uploadMission conn rallyItems 2

/-- The verifications of the second half. -/
def readBack (conn : Conn) (missionItems fenceItems rallyItems : List MissionItem) :
    LinkM Unit := do
  let _ ← verifyRoundTrip conn missionItems 0
  let _ ← verifyRoundTrip conn fenceItems 1
  let _ ← verifyRoundTrip conn rallyItems 2

/-- The clears of the cleanup, without the `try` around them. -/
def clears (conn : Conn) : LinkM Unit := do
  clearMission conn 0
  clearMission conn 1
  clearMission conn 2

section Stages

variable {σ : Type} (h : Handler linkSignature σ LinkEvent) (conn : Conn)
  (missionItems fenceItems rallyItems : List MissionItem) (s : σ)

/-- The three downloads of the verifications, each starting where the one before it ended. -/
def downloadOf (t : ℕ) : Outcome PyError (List (Option MissionItem)) σ LinkEvent :=
  match t with
  | 0 => (downloadMission conn 0).run h s
  | t + 1 => (downloadMission conn (t + 1)).run h (downloadOf t).state

variable {h}

theorem uploadZoneAtomically_eq :
    uploadZoneAtomically conn missionItems fenceItems rallyItems =
      tryCatch
        (uploads conn missionItems fenceItems rallyItems >>= fun _ =>
          readBack conn missionItems fenceItems rallyItems)
        fun _ => tryCatch (clears conn) (fun _ => pure ()) >>= fun _ =>
          throw (.zoneUpload "Zone upload FAILED. All missions cleared for safety.") := by
  simp only [uploadZoneAtomically, uploads, readBack, clears, bind_assoc]

theorem verifyRoundTrip_download (hl : IsLink h) (expected : List MissionItem) (t : ℕ) (s : σ) :
    ∃ b, (verifyRoundTrip conn expected t).run h s =
      ⟨.ok b, ((downloadMission conn t).run h s).state,
        ((downloadMission conn t).run h s).events⟩ := by
  obtain ⟨hstate, hevents, b, hb, -⟩ := verifyRoundTrip_run hl conn expected t s
  exact ⟨b, by rw [← hstate, ← hevents, ← hb]⟩

/-- The verifications never fail, and what happens in them is the downloads. -/
theorem readBack_run (hl : IsLink h) :
    (readBack conn missionItems fenceItems rallyItems).run h s =
      ⟨.ok (), (downloadOf h conn s 2).state, (downloadOf h conn s 0).events ++
        (downloadOf h conn s 1).events ++ (downloadOf h conn s 2).events⟩ := by
  obtain ⟨b₀, h₀⟩ := verifyRoundTrip_download conn hl missionItems 0 s
  obtain ⟨b₁, h₁⟩ := verifyRoundTrip_download conn hl fenceItems 1 (downloadOf h conn s 0).state
  obtain ⟨b₂, h₂⟩ := verifyRoundTrip_download conn hl rallyItems 2 (downloadOf h conn s 1).state
  simp only [readBack, Program.run_bind]
  rw [h₀, Outcome.andThen_mk_ok]
  change Outcome.after _ (((verifyRoundTrip conn fenceItems 1).run h
    (downloadOf h conn s 0).state).andThen _) = _
  rw [h₁, Outcome.andThen_mk_ok]
  change Outcome.after _ (Outcome.after _ (((verifyRoundTrip conn rallyItems 2).run h
    (downloadOf h conn s 1).state).andThen _)) = _
  rw [h₂, Outcome.andThen_mk_ok]
  simp [downloadOf, Outcome.after]

theorem uploadZoneAtomically_ok (hl : IsLink h)
    (hu : ((uploads conn missionItems fenceItems rallyItems).run h s).result = .ok ()) :
    let u := (uploads conn missionItems fenceItems rallyItems).run h s
    (uploadZoneAtomically conn missionItems fenceItems rallyItems).run h s =
      ⟨.ok (), (downloadOf h conn u.state 2).state, u.events ++
        ((downloadOf h conn u.state 0).events ++ (downloadOf h conn u.state 1).events ++
          (downloadOf h conn u.state 2).events)⟩ := by
  intro u
  rw [uploadZoneAtomically_eq, Program.run_tryCatch, Program.run_bind, Outcome.andThen_ok hu,
    readBack_run conn missionItems fenceItems rallyItems _ hl]
  rfl

theorem uploadZoneAtomically_error {x : PyError}
    (hu : ((uploads conn missionItems fenceItems rallyItems).run h s).result = .error x) :
    let u := (uploads conn missionItems fenceItems rallyItems).run h s
    let c := (clears conn).run h u.state
    (uploadZoneAtomically conn missionItems fenceItems rallyItems).run h s =
      ⟨.error (.zoneUpload "Zone upload FAILED. All missions cleared for safety."), c.state,
        u.events ++ c.events⟩ := by
  intro u c
  rw [uploadZoneAtomically_eq]
  simp only [Program.run_tryCatch, Program.run_bind, Outcome.andThen_error hu,
    Program.run_pure, Program.run_throw]
  cases hc : c.result <;>
    simp [Outcome.orElse, Outcome.andThen, Outcome.after, u, c, hc]

end Stages

/-- These events are a complete download of items that match the expected ones. -/
def ReadsBack (conn : Conn) (expected : List MissionItem) (t : ℕ) (events : List LinkEvent) :
    Prop :=
  ∃ got, Downloaded conn t got events ∧ List.Forall₂ ItemMatch expected got

/-- The run ends with a matching read-back of each of the three lists. -/
def AllReadBack (conn : Conn) (missionItems fenceItems rallyItems : List MissionItem)
    (events : List LinkEvent) : Prop :=
  ∃ before mission fence rally, events = before ++ (mission ++ fence ++ rally) ∧
    ReadsBack conn missionItems 0 mission ∧ ReadsBack conn fenceItems 1 fence ∧
    ReadsBack conn rallyItems 2 rally

/-- The lists of a zone by their mission types. -/
def zoneLists (missionItems fenceItems rallyItems : List MissionItem) : ℕ → List MissionItem
  | 0 => missionItems
  | 1 => fenceItems
  | _ => rallyItems

def endsUploading : LinkEvent → Bool
  | .sent _ (.missionRequestList _) | .sent _ (.missionClearAll _) => true
  | _ => false

/-- The messages delivered until a list is asked for or told to clear. -/
def whileUploading (events : List LinkEvent) : List Msg :=
  takenMsgs (events.takeWhile fun e => !endsUploading e)

def isAcceptance : Msg → Bool
  | .missionAck type _ => type == 0
  | _ => false

def acceptances (ms : List Msg) : ℕ := ms.countP isAcceptance

/-- How many of the lists have to be acknowledged; an empty one is not sent. -/
def nonEmpty (lists : List (List MissionItem)) : ℕ := lists.countP fun items => !items.isEmpty

section Acceptances

variable {σ : Type} {h : Handler linkSignature σ LinkEvent} (conn : Conn)

theorem acceptances_append (a b : List Msg) :
    acceptances (a ++ b) = acceptances a + acceptances b := List.countP_append

theorem acceptances_of_noAck {ms : List Msg} (hno : NoAck ms) : acceptances ms = 0 := by
  refine List.countP_eq_zero.mpr fun m hm => ?_
  cases m with
  | missionAck type ty => exact absurd rfl (hno _ hm)
  | _ => simp [isAcceptance]

/-- An upload takes one acceptance when it returns, and none when it fails. -/
theorem uploadMission_acceptances (hl : IsLink h) (items : List MissionItem) (t : ℕ) (s : σ) :
    let o := (uploadMission conn items t).run h s
    (o.result = .ok () → acceptances (takenMsgs o.events) = nonEmpty [items]) ∧
      ∀ x, o.result = .error x → acceptances (takenMsgs o.events) < nonEmpty [items] := by
  intro o
  by_cases hne : items = []
  · subst hne
    simp [o, uploadMission, acceptances, nonEmpty]
  · have hone : nonEmpty [items] = 1 := by simp [nonEmpty, hne]
    rw [hone]
    rcases (uploadMission_trace hl conn hne t s).ackEnd with
      ⟨before, ty, hok, hev, hno, -⟩ | ⟨x, herr, hnone⟩
    · have htaken : takenMsgs o.events = takenMsgs before ++ [.missionAck 0 ty] := by
        simp [o, hev]
      refine ⟨fun _ => ?_, fun x hx => by simp [o, hok] at hx⟩
      rw [htaken, acceptances_append, acceptances_of_noAck hno]
      rfl
    · refine ⟨fun hok => by simp [o, herr] at hok, fun _ _ => ?_⟩
      refine Nat.lt_one_iff.mpr (List.countP_eq_zero.mpr fun m hm => ?_)
      cases m with
      | missionAck type ty =>
        have htype : type ≠ 0 := by
          rintro rfl
          exact hnone ty hm
        simpa [isAcceptance] using htype
      | _ => simp [isAcceptance]

/-- The uploads return exactly when each list that is sent has been accepted. -/
theorem uploads_acceptances (hl : IsLink h) (missionItems fenceItems rallyItems : List MissionItem)
    (s : σ) :
    let o := (uploads conn missionItems fenceItems rallyItems).run h s
    (o.result = .ok () →
      acceptances (takenMsgs o.events) = nonEmpty [missionItems, fenceItems, rallyItems]) ∧
    ∀ x, o.result = .error x →
      acceptances (takenMsgs o.events) < nonEmpty [missionItems, fenceItems, rallyItems] := by
  intro o
  have hsum : nonEmpty [missionItems, fenceItems, rallyItems] =
      nonEmpty [missionItems] + nonEmpty [fenceItems] + nonEmpty [rallyItems] := by
    simp only [nonEmpty, List.countP_cons, List.countP_nil]
    omega
  rw [hsum]
  simp only [o, uploads, Program.run_bind]
  obtain ⟨hok₀, herr₀⟩ := uploadMission_acceptances conn hl missionItems 0 s
  cases h₀ : ((uploadMission conn missionItems 0).run h s).result with
  | error x =>
    rw [Outcome.andThen_error h₀]
    refine ⟨fun hok => by simp at hok, fun _ _ => ?_⟩
    exact Nat.lt_add_right _ (Nat.lt_add_right _ (herr₀ x h₀))
  | ok r₀ =>
    rw [Outcome.andThen_ok h₀]
    obtain ⟨hok₁, herr₁⟩ := uploadMission_acceptances conn hl fenceItems 1
      ((uploadMission conn missionItems 0).run h s).state
    cases h₁ : ((uploadMission conn fenceItems 1).run h
        ((uploadMission conn missionItems 0).run h s).state).result with
    | error x =>
      rw [Outcome.andThen_error h₁]
      refine ⟨fun hok => by simp at hok, fun _ _ => ?_⟩
      have := hok₀ h₀
      have := herr₁ x h₁
      simp only [Outcome.after_events, takenMsgs_append, acceptances_append]
      omega
    | ok r₁ =>
      rw [Outcome.andThen_ok h₁]
      obtain ⟨hok₂, herr₂⟩ := uploadMission_acceptances conn hl rallyItems 2
        ((uploadMission conn fenceItems 1).run h
          ((uploadMission conn missionItems 0).run h s).state).state
      have := hok₀ h₀
      have := hok₁ h₁
      simp only [Outcome.after_events, Outcome.after_result, takenMsgs_append,
        acceptances_append]
      refine ⟨fun hok => ?_, fun x hx => ?_⟩
      · have := hok₂ hok
        omega
      · have := herr₂ x hx
        omega

theorem calls_uploads (missionItems fenceItems rallyItems : List MissionItem) :
    (uploads conn missionItems fenceItems rallyItems).Calls
      (SendsOnly fun m => m.getType = .missionCount ∨ m.getType = .missionItemInt) := by
  have hup : ∀ items t, (uploadMission conn items t).Calls
      (SendsOnly fun m => m.getType = .missionCount ∨ m.getType = .missionItemInt) := by
    intro items t
    refine calls_uploadMission.mono (SendsOnly.mono ?_)
    rintro m (rfl | ⟨item, -, rfl⟩) <;> simp [Msg.getType]
  exact (hup _ _).bind fun _ => (hup _ _).bind fun _ => hup _ _

theorem whileUploading_append (hl : IsLink h)
    (missionItems fenceItems rallyItems : List MissionItem) (s : σ) {e : LinkEvent}
    {rest : List LinkEvent} (he : endsUploading e = true) :
    let u := (uploads conn missionItems fenceItems rallyItems).run h s
    whileUploading (u.events ++ e :: rest) = takenMsgs u.events := by
  intro u
  have hsent := sentMsgs_of_calls hl (calls_uploads conn missionItems fenceItems rallyItems) s
  have hall : ∀ e ∈ u.events, (!endsUploading e) = true := by
    intro e he
    cases e with
    | sent c m =>
      have hm := hsent m (List.mem_filterMap.mpr ⟨_, he, rfl⟩)
      cases m <;> simp_all [endsUploading, Msg.getType]
    | took m => rfl
    | skipped m => rfl
  rw [whileUploading, List.takeWhile_append_of_pos hall, List.takeWhile_cons_of_neg (by simp [he]),
    List.append_nil]

theorem clears_events (l : Link) : ∃ rest,
    ((clears conn).run link l).events = .sent conn (.missionClearAll 0) :: rest := by
  simp only [clears, Program.run_bind, clearMission_eq, run_send isLink_link,
    Outcome.andThen_mk_ok, Outcome.after_andThen, Outcome.after_events]
  exact ⟨_, rfl⟩

end Acceptances

theorem answeredFrom_reads {lists : ℕ → List MissionItem} {mission fence rally : List LinkEvent}
    (hfence : delivered fence = []) (hrally : delivered rally = []) :
    AnsweredFrom lists (mission ++ fence ++ rally) ↔
      AnsweredFrom lists mission ∧ AnsweredFrom lists fence ∧ AnsweredFrom lists rally := by
  rw [answeredFrom_append hrally, answeredFrom_append hfence, and_assoc]

theorem ReadsBack.starts {conn : Conn} {expected : List MissionItem} {t : ℕ}
    {events : List LinkEvent} (h : ReadsBack conn expected t events) :
    ∃ rest, events = .sent conn (.missionRequestList t) :: rest := by
  obtain ⟨got, hd, -⟩ := h
  cases hd with
  | empty w => exact ⟨_, rfl⟩
  | items hne w hr => exact ⟨_, rfl⟩

theorem ReadsBack.answeredFrom {conn : Conn} {lists : ℕ → List MissionItem} {t : ℕ}
    {events : List LinkEvent} (h : ReadsBack conn (lists t) t events) :
    AnsweredFrom lists events := by
  obtain ⟨got, hd, hmatch⟩ := h
  exact hd.answeredFrom_iff.mpr hmatch

/-- The events of the three read-backs. -/
def readsOf (conn : Conn) (l : Link) : List LinkEvent :=
  (downloadOf link conn l 0).events ++ (downloadOf link conn l 1).events ++
    (downloadOf link conn l 2).events

theorem listRequest_not_mem {c : Conn} {t : ℕ} {events : List LinkEvent}
    (h : ∀ m ∈ sentMsgs events, m.getType ≠ .missionRequestList) :
    .sent c (.missionRequestList t) ∉ events :=
  fun hmem => h _ (List.mem_filterMap.mpr ⟨_, hmem, rfl⟩) rfl

theorem downloadOf_starts (conn : Conn) (l : Link) (t : ℕ) :
    ∃ rest, (downloadOf link conn l t).events = .sent conn (.missionRequestList t) :: rest ∧
      ∀ m ∈ sentMsgs rest, m.getType ≠ .missionRequestList := by
  unfold downloadOf
  split <;> exact downloadMission_starts isLink_link conn _ _

/-- The list of the mission type is asked for at the start of the read-backs and not again. -/
theorem readsOf_starts (conn : Conn) (l : Link) :
    ∃ rest, readsOf conn l = .sent conn (.missionRequestList 0) :: rest ∧
      .sent conn (.missionRequestList 0) ∉ rest := by
  obtain ⟨rest₀, h₀, hrest₀⟩ := downloadOf_starts conn l 0
  obtain ⟨rest₁, h₁, hrest₁⟩ := downloadOf_starts conn l 1
  obtain ⟨rest₂, h₂, hrest₂⟩ := downloadOf_starts conn l 2
  refine ⟨rest₀ ++ (downloadOf link conn l 1).events ++ (downloadOf link conn l 2).events, ?_, ?_⟩
  · rw [readsOf, h₀, List.cons_append, List.cons_append]
  · simp [h₁, h₂, listRequest_not_mem hrest₀, listRequest_not_mem hrest₁,
      listRequest_not_mem hrest₂]

/-- The read-backs at the end of a run are the only ones in it. -/
theorem eq_readsOf {conn : Conn} {l : Link} {before before' reads : List LinkEvent}
    (hbefore : ∀ m ∈ sentMsgs before, m.getType ≠ .missionRequestList)
    (hreads : ∃ rest, reads = .sent conn (.missionRequestList 0) :: rest)
    (heq : before ++ readsOf conn l = before' ++ reads) : readsOf conn l = reads := by
  obtain ⟨rest, hrest, hnotAfter⟩ := readsOf_starts conn l
  obtain ⟨rest', rfl⟩ := hreads
  rw [hrest] at heq ⊢
  obtain ⟨-, -, rfl⟩ :=
    (List.append_cons_inj_of_notMem (listRequest_not_mem hbefore) hnotAfter).mp heq
  rfl

/-- After the uploads, the run ends with matching read-backs exactly when all
that was asked for in it was answered from the lists. -/
theorem allReadBack_iff (conn : Conn) (missionItems fenceItems rallyItems : List MissionItem)
    (l : Link) {before : List LinkEvent}
    (hbefore : ∀ m ∈ sentMsgs before, m.getType = .missionCount ∨ m.getType = .missionItemInt) :
    AllReadBack conn missionItems fenceItems rallyItems (before ++ readsOf conn l) ↔
      AnsweredFrom (zoneLists missionItems fenceItems rallyItems) (before ++ readsOf conn l) := by
  obtain ⟨rest, hrest, -⟩ := readsOf_starts conn l
  have hwriting : AnsweredFrom (zoneLists missionItems fenceItems rallyItems) before := by
    refine answeredFrom_of_writing fun m hm t => ?_
    have hkind := hbefore m hm
    refine ⟨?_, fun k => ?_⟩ <;> rintro rfl <;> simp [Msg.getType] at hkind
  rw [answeredFrom_append (by simp [hrest]), and_iff_right hwriting]
  constructor
  · rintro ⟨before', mission, fence, rally, heq, hmission, hfence, hrally⟩
    obtain ⟨restm, hm⟩ := hmission.starts
    obtain ⟨restf, hf⟩ := hfence.starts
    obtain ⟨restr, hr⟩ := hrally.starts
    have hasks : ∀ m ∈ sentMsgs before, m.getType ≠ .missionRequestList := by
      intro m hmem
      rcases hbefore m hmem with hkind | hkind <;> simp [hkind]
    have hreads : readsOf conn l = mission ++ fence ++ rally :=
      eq_readsOf hasks ⟨restm ++ fence ++ rally, by simp [hm]⟩ (by simpa using heq)
    rw [hreads, answeredFrom_reads (by simp [hf]) (by simp [hr])]
    let lists := zoneLists missionItems fenceItems rallyItems
    have hmission' : ReadsBack conn (lists 0) 0 _ := hmission
    have hfence' : ReadsBack conn (lists 1) 1 _ := hfence
    have hrally' : ReadsBack conn (lists 2) 2 _ := hrally
    exact ⟨hmission'.answeredFrom, hfence'.answeredFrom, hrally'.answeredFrom⟩
  · obtain ⟨rest₁, h₁, -⟩ := downloadOf_starts conn l 1
    obtain ⟨rest₂, h₂, -⟩ := downloadOf_starts conn l 2
    rw [readsOf, answeredFrom_reads (by simp [h₁]) (by simp [h₂])]
    rintro ⟨hmission, hfence, hrally⟩
    exact ⟨before, _, _, _, rfl, (downloadMission_answeredFrom_iff isLink_link l).mp hmission,
      (downloadMission_answeredFrom_iff isLink_link _).mp hfence,
      (downloadMission_answeredFrom_iff isLink_link _).mp hrally⟩

/-- A zone upload that returns has read all three lists back as they were
uploaded exactly when fewer of them were accepted than were sent, and nothing
was returned, or the autopilot answered every request of the read-backs from
the uploaded lists. -/
theorem uploadZoneAtomically_verified_iff (conn : Conn)
    (missionItems fenceItems rallyItems : List MissionItem) (l : Link) :
    let o := (uploadZoneAtomically conn missionItems fenceItems rallyItems).run link l
    (o.result = .ok () → AllReadBack conn missionItems fenceItems rallyItems o.events) ↔
      acceptances (whileUploading o.events) < nonEmpty [missionItems, fenceItems, rallyItems] ∨
        AnsweredFrom (zoneLists missionItems fenceItems rallyItems) o.events := by
  intro o
  obtain ⟨hok, herr⟩ := uploads_acceptances conn isLink_link missionItems fenceItems rallyItems l
  cases hu : ((uploads conn missionItems fenceItems rallyItems).run link l).result with
  | error x =>
    have hrun := uploadZoneAtomically_error conn missionItems fenceItems rallyItems l hu
    refine iff_of_true (fun h => by simp [o, hrun] at h) (.inl ?_)
    obtain ⟨rest, hclears⟩ := clears_events conn
      ((uploads conn missionItems fenceItems rallyItems).run link l).state
    simp only [o, hrun]
    rw [hclears, whileUploading_append conn isLink_link _ _ _ _ rfl]
    exact herr x hu
  | ok r =>
    have hrun := uploadZoneAtomically_ok conn missionItems fenceItems rallyItems l isLink_link hu
    have hsent := sentMsgs_of_calls isLink_link
      (calls_uploads conn missionItems fenceItems rallyItems) l
    obtain ⟨rest, hstart, -⟩ := downloadMission_starts isLink_link conn 0
      ((uploads conn missionItems fenceItems rallyItems).run link l).state
    have hall : ¬ acceptances (whileUploading o.events) <
        nonEmpty [missionItems, fenceItems, rallyItems] := by
      simp only [o, hrun, downloadOf, hstart, List.cons_append]
      rw [whileUploading_append conn isLink_link _ _ _ _ rfl, hok hu]
      exact lt_irrefl _
    have hresult : o.result = .ok () := by simp [o, hrun]
    have hevents : o.events = _ := congrArg Outcome.events hrun
    rw [or_iff_right hall, imp_iff_right hresult, hevents]
    exact allReadBack_iff conn missionItems fenceItems rallyItems
      ((uploads conn missionItems fenceItems rallyItems).run link l).state hsent

/-- The three uploads are acknowledged, then the autopilot lists nothing at
all: the zone upload returns although none of the lists was read back. -/
theorem uploadZoneAtomically_unverified :
    let waypoint : MissionItem := { seq := 0, frame := 5, command := 16 }
    let vertex : MissionItem := { seq := 0, frame := 5, command := 5001, missionType := 1 }
    let rally : MissionItem := { seq := 0, frame := 5, command := 5100, missionType := 2 }
    let l : Link := ⟨[.missionRequestInt 0 0, .missionAck 0 0, .missionRequestInt 0 1,
      .missionAck 0 1, .missionRequestInt 0 2, .missionAck 0 2, .missionCount 0 0,
      .missionCount 0 1, .missionCount 0 2], List.replicate 40 ⟨[], 2⟩⟩
    let o := (uploadZoneAtomically ⟨1, 1⟩ [waypoint] [vertex] [rally]).run link l
    o.result = .ok () ∧ ¬ AllReadBack ⟨1, 1⟩ [waypoint] [vertex] [rally] o.events := by
  refine ⟨rfl, ?_⟩
  rintro ⟨before, mission, fence, rally, heq, ⟨got, hd, hmatch⟩, -, -⟩
  obtain ⟨hfirst, rest, htaken, -⟩ := hd.firstCount
  have hcount : .missionCount 1 0 ∈ takenMsgs mission := by
    rw [htaken, ← hmatch.length_eq]
    simp
  have hmem := congrArg (fun events => Msg.missionCount 1 0 ∈ takenMsgs events) heq
  simp only [takenMsgs_append, List.mem_append, hcount, true_or, or_true, eq_iff_iff,
    iff_true] at hmem
  revert hmem
  decide +kernel

/-- Every mission type has been told to clear. -/
def ClearsSent (events : List LinkEvent) : Prop :=
  ∀ t ∈ [0, 1, 2], .missionClearAll t ∈ sentMsgs events

theorem uploads_sends_no_clear (conn : Conn)
    (missionItems fenceItems rallyItems : List MissionItem) (l : Link) (t : ℕ) :
    .missionClearAll t ∉ sentMsgs ((uploads conn missionItems fenceItems rallyItems).run
      link l).events := by
  intro hm
  have hkind := sentMsgs_of_calls isLink_link
    (calls_uploads conn missionItems fenceItems rallyItems) l _ hm
  simp [Msg.getType] at hkind

theorem clearMission_sends (conn : Conn) (t u : ℕ) (l : Link) :
    .missionClearAll u ∈ sentMsgs ((clearMission conn t).run link l).events ↔ u = t := by
  constructor
  · intro hm
    rcases sentMsgs_of_calls isLink_link calls_clearMission l _ hm with h | h | ⟨k, h⟩ | h
    · simpa using h
    all_goals simp at h
  · rintro rfl
    simp [clearMission, Program.run_bind, run_send isLink_link]

theorem clears_sent_iff (conn : Conn) (l : Link) :
    ClearsSent ((clears conn).run link l).events ↔ ClearConfirmed link conn 0 l ∧
      ClearConfirmed link conn 1 ((clearMission conn 0).run link l).state := by
  simp only [← clearMission_ok_iff isLink_link]
  simp only [clears, Program.run_bind, ClearsSent, List.forall_mem_cons]
  cases h₀ : ((clearMission conn 0).run link l).result with
  | error x => simp [Outcome.andThen_error h₀, clearMission_sends]
  | ok r₀ =>
    cases h₁ : ((clearMission conn 1).run link
        ((clearMission conn 0).run link l).state).result with
    | error x =>
      simp [Outcome.andThen_ok h₀, Outcome.andThen_error h₁, clearMission_sends]
    | ok r₁ =>
      simp [Outcome.andThen_ok h₀, Outcome.andThen_ok h₁, clearMission_sends]

/-- A zone upload that raises has told every mission type to clear exactly when
the clears of the mission and of the fence are both confirmed; either way of
failing in one of them keeps the later ones from being sent. -/
theorem uploadZoneAtomically_clears_iff (conn : Conn)
    (missionItems fenceItems rallyItems : List MissionItem) (l : Link) :
    let o := (uploadZoneAtomically conn missionItems fenceItems rallyItems).run link l
    let u := (uploads conn missionItems fenceItems rallyItems).run link l
    let c := (clearMission conn 0).run link u.state
    (∀ x, o.result = .error x → ClearsSent o.events) ↔
      u.result = .ok () ∨
        (ClearConfirmed link conn 0 u.state ∧ ClearConfirmed link conn 1 c.state) := by
  intro o u c
  cases hu : u.result with
  | ok r =>
    have hrun := uploadZoneAtomically_ok conn missionItems fenceItems rallyItems l isLink_link hu
    exact iff_of_true (fun x hx => by simp [o, hrun] at hx) (.inl rfl)
  | error x =>
    have hrun := uploadZoneAtomically_error conn missionItems fenceItems rallyItems l hu
    have hno := uploads_sends_no_clear conn missionItems fenceItems rallyItems l
    have hev : ClearsSent o.events ↔ ClearsSent ((clears conn).run link u.state).events := by
      simp [o, hrun, ClearsSent, hno, u]
    have herr : ∃ y, o.result = .error y := ⟨_, congrArg Outcome.result hrun⟩
    rw [← clears_sent_iff, ← hev]
    constructor
    · intro hall
      obtain ⟨y, hy⟩ := herr
      exact .inr (hall y hy)
    · rintro (hok | hc) y -
      · simp at hok
      · exact hc

/-- The upload is rejected and the autopilot stays silent during the cleanup:
the error says that everything was cleared, but the fence and the rally points
were never told to. -/
theorem uploadZoneAtomically_half_cleared :
    let waypoint : MissionItem := { seq := 0, frame := 5, command := 16 }
    let l : Link := ⟨[.missionAck 1 0], List.replicate 20 ⟨[], 2⟩⟩
    let o := (uploadZoneAtomically ⟨1, 1⟩ [waypoint] [] []).run link l
    o.result = .error (.zoneUpload "Zone upload FAILED. All missions cleared for safety.") ∧
      sentMsgs o.events = [.missionCount 1 0, .missionClearAll 0] ∧ ¬ ClearsSent o.events := by
  refine ⟨rfl, rfl, fun hall => ?_⟩
  exact absurd (hall 1 (by simp)) (by decide)

end MowerRover.Cli
