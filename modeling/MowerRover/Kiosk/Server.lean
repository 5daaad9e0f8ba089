import MowerRover.Kiosk.FrameStream
import MowerRover.Kiosk.State

/-!
# The kiosk server and the display

`run_kiosk` serves one client at a time. A round takes a snapshot, accepts a
connection if it has none and pushes the snapshot as one frame; a `sendall` that
fails may have written a part of it, and the server closes that connection. The
display polls when its timer fires, so rounds and polls come in any order, and
either side may find the other gone.
-/

namespace MowerRover.Kiosk

open Numeric Json

/-- How a `sendall` ends: well, or with an exception after so many bytes. -/
inductive SendEnd
  | all
  | broke (written : ℕ)

/-- The server's end of the connection that the display has. -/
inductive ServerEnd
  | backlog
  | served
  | closed
  deriving DecidableEq

/-- What was pushed on one connection of the display, and what it took from it. -/
structure Exchange where
  pushed : List SharedState := []
  shown : List KioskData := []

structure System where
  client : Client
  pending : List UInt8
  serverEnd : ServerEnd
  /-- connections the display has left and the server has not yet found dead: the one it holds,
  or others in the backlog -/
  dead : ℕ
  running : Bool
  earlier : List Exchange
  current : Exchange

inductive SystemEvent
  /-- a round of the loop, with its snapshot -/
  | round (snapshot : SharedState) (sent : SendEnd)
  /-- a poll of the display; `recv` may find the connection reset -/
  | poll (turn : Turn) (reset : Bool)
  | shutdown

/-- What the display makes of a snapshot. -/
def shownAs (s : SharedState) : Option KioskData := parseKioskJson (payload s)

namespace System

/-- The server listens and the display has not polled yet. -/
def initial : System := ⟨.init, [], .closed, 0, true, [], {}⟩

/-- The `finally` clause. -/
def stop (w : System) : System := { w with running := false, dead := 0, serverEnd := .closed }

def send (s : SharedState) (w : System) : SendEnd → System
  | .all =>
    { w with
      pending := w.pending ++ frame 4 (payload s)
      serverEnd := .served
      current := { w.current with pushed := w.current.pushed ++ [s] } }
  | .broke written =>
    { w with
      pending := w.pending ++ (frame 4 (payload s)).take written
      serverEnd := .closed
      current := { w.current with pushed := w.current.pushed ++ [s] } }

/-- A round of the server; `accept` times out when there is nobody. -/
def serve (s : SharedState) (sent : SendEnd) (w : System) : System :=
  if !w.running || (w.dead = 0 && (!w.client.connected || w.serverEnd = .closed)) then w
  -- `struct.pack` has four bytes for the length
  else if 256 ^ 4 ≤ (payload s).length then w.stop
  -- nobody reads from a connection that the display has left
  else if w.dead ≠ 0 then { w with dead := w.dead - 1 }
  else w.send s sent

/-- `recv`; with nothing there, a connection that the server has closed is at its end. -/
def recv (w : System) (chunk : ℕ) (reset : Bool) (space : ℕ) : Recv space :=
  if reset then .error
  else if w.serverEnd = .closed ∧ w.pending = [] then .closed else recvFrom w.pending chunk space

/-- A poll of the display. -/
def poll (t : Turn) (reset : Bool) (w : System) : System :=
  let polled := w.client.poll parseKioskJson t.attempt (w.recv t.chunk reset)
  if !w.client.connected then
    if polled.1.connected then
      { w with client := polled.1, pending := [], serverEnd := .backlog }
    else { w with client := polled.1 }
  else if polled.1.connected then
    { w with
      client := polled.1
      pending := w.pending.drop (min t.chunk (recvBufSize - w.client.buf.length))
      current := { w.current with shown := w.current.shown ++ polled.2.toList } }
  else
    { w with
      client := polled.1
      pending := []
      dead := if w.running ∧ w.serverEnd ≠ .closed then w.dead + 1 else w.dead
      earlier := w.earlier ++ [w.current]
      current := {} }

def step (w : System) : SystemEvent → System
  | .round s sent => w.serve s sent
  | .poll t reset => w.poll t reset
  | .shutdown => w.stop

def run (events : List SystemEvent) : System := events.foldl step initial

/-- The connections of the display, the latest at the end. -/
def exchanges (w : System) : List Exchange := w.earlier ++ [w.current]

end System

/-- What the loop does with the front of frames of any size. -/
theorem extract_front {δ : Type} (parse : List UInt8 → Option δ) {ps : List (List UInt8)}
    (hsize : ∀ p ∈ ps, p.length < 256 ^ 4) {buf tail : List UInt8}
    (hsplit : buf ++ tail = frames 4 ps) :
    extract parse buf = .oversized ∨
      (∃ rest ps', extract parse buf = .waiting rest ∧ rest ++ tail = frames 4 ps' ∧
        ps.filterMap parse = ps'.filterMap parse ∧ ps' <:+ ps) ∨
      ∃ data rest ps', extract parse buf = .accepted data rest ∧ rest ++ tail = frames 4 ps' ∧
        ps.filterMap parse = data :: ps'.filterMap parse ∧ ps' <:+ ps := by
  induction ps generalizing buf with
  | nil =>
    obtain ⟨rfl, rfl⟩ := List.append_eq_nil_iff.mp hsplit
    exact .inr (.inl ⟨[], [], by simp [extract], rfl, rfl, List.suffix_refl _⟩)
  | cons p ps ih =>
    rw [List.forall_mem_cons] at hsize
    rw [frames_cons] at hsplit
    by_cases hshort : buf.length < 4
    · exact .inr (.inl ⟨buf, p :: ps, by rw [extract, if_pos hshort], hsplit, rfl,
        List.suffix_refl _⟩)
    have hheader := header_eq hsplit (not_lt.mp hshort) hsize.1
    by_cases hbig : recvBufSize - 4 < p.length
    · left
      rw [extract, if_neg hshort, hheader, if_pos hbig]
    by_cases hwait : buf.length < 4 + p.length
    · refine .inr (.inl ⟨buf, p :: ps, ?_, hsplit, rfl, List.suffix_refl _⟩)
      rw [extract, if_neg hshort, hheader, if_neg hbig, if_pos hwait]
    obtain ⟨hpayload, hrest⟩ := cut_frame hsplit (not_lt.mp hwait)
    cases hparse : parse p with
    | some data =>
      have hextract : extract parse buf = .accepted data (buf.drop (4 + p.length)) := by
        rw [extract, if_neg hshort, hheader, if_neg hbig, if_neg hwait, hpayload, hparse]
      exact .inr (.inr ⟨data, _, ps, hextract, hrest, by simp [hparse], List.suffix_cons p ps⟩)
    | none =>
      have hextract : extract parse buf = extract parse (buf.drop (4 + p.length)) := by
        rw [extract, if_neg hshort, hheader, if_neg hbig, if_neg hwait, hpayload, hparse]
      rw [hextract, List.filterMap_cons_none hparse]
      rcases ih hsize.2 hrest with h | ⟨rest, ps', h, h1, h2, h3⟩ | ⟨data, rest, ps', h, h1, h2, h3⟩
      · exact .inl h
      · exact .inr (.inl ⟨rest, ps', h, h1, h2, h3.trans (List.suffix_cons p ps)⟩)
      · exact .inr (.inr ⟨data, rest, ps', h, h1, h2, h3.trans (List.suffix_cons p ps)⟩)

/-- A client that stays connected holds the front of the frames that are left, and has seen what
the others hold. -/
theorem settle_extract {δ : Type} (parse : List UInt8 → Option δ) (c : Client)
    {ps : List (List UInt8)} (hsize : ∀ p ∈ ps, p.length < 256 ^ 4) {buf tail : List UInt8}
    (hbuf : buf.length ≤ recvBufSize) (hsplit : buf ++ tail = frames 4 ps)
    (hstays : (c.settle (extract parse buf)).1.connected = true) :
    (c.settle (extract parse buf)).1.buf.length < recvBufSize ∧ ∃ ps', ps' <:+ ps ∧
      (c.settle (extract parse buf)).1.buf ++ tail = frames 4 ps' ∧
      ps.filterMap parse =
        (c.settle (extract parse buf)).2.toList ++ ps'.filterMap parse := by
  have hroom := extract_room parse _ hbuf
  rcases extract_front parse hsize hsplit with
    hbig | ⟨rest, ps', hextract, hrest, hsame, hsuffix⟩ |
      ⟨data, rest, ps', hextract, hrest, hsame, hsuffix⟩
  · rw [hbig] at hstays
    cases hstays
  · rw [hextract] at hroom ⊢
    exact ⟨hroom, ps', hsuffix, hrest, hsame⟩
  · rw [hextract] at hroom ⊢
    exact ⟨hroom, ps', hsuffix, hrest, hsame⟩

/-- What the display holds and what is on its way are the front of the frames of the snapshots
that it has not seen; all of them while the server keeps the connection. -/
structure OnWay (w : System) (unseen : List SharedState) (tail : List UInt8) : Prop where
  room : w.client.buf.length < recvBufSize
  split : w.client.buf ++ w.pending ++ tail = frames 4 (unseen.map payload)
  whole : w.serverEnd ≠ .closed → tail = []
  size : ∀ s ∈ unseen, (payload s).length < 256 ^ 4
  seen : w.current.pushed.filterMap shownAs = w.current.shown ++ unseen.filterMap shownAs
  suffix : unseen <:+ w.current.pushed

/-- The display has shown what the first snapshots pushed on a connection hold. -/
def Exchange.InOrder (e : Exchange) : Prop := e.shown <+: e.pushed.filterMap shownAs

structure Sound (w : System) : Prop where
  earlier : ∀ e ∈ w.earlier, e.InOrder
  connected : w.client.connected = true → ∃ unseen tail, OnWay w unseen tail
  apart : w.client.connected = false → w.current = {}

section Steps

variable {w : System}

theorem Sound.current_inOrder (hw : Sound w) : w.current.InOrder := by
  cases hconnected : w.client.connected with
  | false =>
    rw [hw.apart hconnected]
    exact List.prefix_refl _
  | true =>
    obtain ⟨unseen, tail, h⟩ := hw.connected hconnected
    exact ⟨_, h.seen.symm⟩

theorem Sound.stop (hw : Sound w) : Sound w.stop where
  earlier := hw.earlier
  connected hconnected := by
    obtain ⟨unseen, tail, h⟩ := hw.connected hconnected
    exact ⟨unseen, tail, h.room, h.split, fun hopen => absurd rfl hopen, h.size, h.seen, h.suffix⟩
  apart := hw.apart

/-- A push onto a connection that the server holds. -/
theorem Sound.send (hw : Sound w) (hconnected : w.client.connected = true)
    (hopen : w.serverEnd ≠ .closed) {s : SharedState} (hsize : (payload s).length < 256 ^ 4)
    (sent : SendEnd) : Sound (w.send s sent) := by
  obtain ⟨unseen, tail, h⟩ := hw.connected hconnected
  obtain rfl := h.whole hopen
  have hsplit : w.client.buf ++ w.pending = frames 4 (unseen.map payload) := by
    simpa using h.split
  have hsizes : ∀ s' ∈ unseen ++ [s], (payload s').length < 256 ^ 4 := by
    intro s' hs'
    obtain hs' | hs' := List.mem_append.mp hs'
    · exact h.size s' hs'
    · rwa [List.mem_singleton.mp hs']
  have hseen : (w.current.pushed ++ [s]).filterMap shownAs =
      w.current.shown ++ (unseen ++ [s]).filterMap shownAs := by
    rw [List.filterMap_append, h.seen, List.filterMap_append, List.append_assoc]
  have hsuffix : unseen ++ [s] <:+ w.current.pushed ++ [s] := by
    obtain ⟨front, hfront⟩ := h.suffix
    exact ⟨front, by rw [← hfront, List.append_assoc]⟩
  cases sent with
  | all =>
    refine ⟨hw.earlier, fun _ => ⟨unseen ++ [s], [], h.room, ?_, fun _ => rfl, hsizes, hseen,
      hsuffix⟩, fun hapart => ?_⟩
    · change w.client.buf ++ (w.pending ++ frame 4 (payload s)) ++ [] = _
      rw [List.append_nil, ← List.append_assoc, hsplit]
      simp [frames]
    · rw [System.send, hconnected] at hapart
      cases hapart
  | broke written =>
    refine ⟨hw.earlier, fun _ => ⟨unseen ++ [s], (frame 4 (payload s)).drop written, h.room, ?_,
      fun hclosed => absurd rfl hclosed, hsizes, hseen, hsuffix⟩, fun hapart => ?_⟩
    · change w.client.buf ++ (w.pending ++ (frame 4 (payload s)).take written) ++ _ = _
      rw [List.append_assoc, List.append_assoc, List.take_append_drop, ← List.append_assoc, hsplit]
      simp [frames]
    · rw [System.send, hconnected] at hapart
      cases hapart

theorem Sound.serve (hw : Sound w) (s : SharedState) (sent : SendEnd) :
    Sound (w.serve s sent) := by
  unfold System.serve
  split_ifs with hidle hbig hdead
  · exact hw
  · exact hw.stop
  · refine ⟨hw.earlier, fun hconnected => ?_, hw.apart⟩
    obtain ⟨unseen, tail, h⟩ := hw.connected hconnected
    exact ⟨unseen, tail, h.room, h.split, h.whole, h.size, h.seen, h.suffix⟩
  · simp only [Bool.or_eq_true, Bool.not_eq_true', Bool.and_eq_true, decide_eq_true_eq, not_or,
      not_and, Bool.not_eq_false] at hidle hdead
    obtain ⟨hconnected, hopen⟩ := hidle.2 (not_not.mp hdead)
    exact hw.send hconnected hopen (not_le.mp hbig) sent

theorem tryConnect_buf {c : Client} {a : Attempt} (h : c.connected = false)
    (hconnected : (c.tryConnect a).connected = true) : (c.tryConnect a).buf = [] := by
  unfold Client.tryConnect at hconnected ⊢
  dsimp only at hconnected ⊢
  split_ifs at hconnected ⊢ with h1 h2 h3
  all_goals simp_all

theorem received_recvFrom (c : Client) (hroom : c.buf.length < recvBufSize) (pending : List UInt8)
    (chunk : ℕ) : c.received (recvFrom pending chunk _) =
      some (c.buf ++ pending.take (min chunk (recvBufSize - c.buf.length))) := by
  rw [recvFrom, if_neg (by omega)]
  split_ifs with hempty
  · simp [Client.received, hempty]
  · rfl

theorem exists_unseen {unseen : List SharedState} {ps : List (List UInt8)}
    (h : ps <:+ unseen.map payload) : ∃ unseen', ps = unseen'.map payload ∧ unseen' <:+ unseen := by
  refine ⟨unseen.drop ((unseen.map payload).length - ps.length), ?_, List.drop_suffix _ _⟩
  rw [List.map_drop]
  exact List.suffix_iff_eq_drop.mp h

/-- A receive that fails or finds the end of the stream disconnects the display. -/
theorem System.recv_of_stays (hconnected : w.client.connected = true) {t : Turn} {reset : Bool}
    (hstays : (w.client.poll parseKioskJson t.attempt (w.recv t.chunk reset)).1.connected = true) :
    w.recv t.chunk reset (recvBufSize - w.client.buf.length) =
      recvFrom w.pending t.chunk (recvBufSize - w.client.buf.length) := by
  unfold System.recv
  split_ifs with hreset hend
  · simp [Client.poll, hconnected, System.recv, hreset, Client.received,
      Client.handleDisconnect] at hstays
  · simp [Client.poll, hconnected, System.recv, hreset, hend, Client.received,
      Client.handleDisconnect] at hstays
  · rfl

/-- A poll that leaves the display connected. -/
theorem OnWay.poll {unseen : List SharedState} {tail : List UInt8} (h : OnWay w unseen tail)
    (hconnected : w.client.connected = true) (t : Turn) (reset : Bool)
    (hstays : (w.client.poll parseKioskJson t.attempt (w.recv t.chunk reset)).1.connected = true) :
    ∃ unseen', OnWay (w.poll t reset) unseen' tail := by
  have hpoll : w.poll t reset = { w with
      client := (w.client.poll parseKioskJson t.attempt (w.recv t.chunk reset)).1
      pending := w.pending.drop (min t.chunk (recvBufSize - w.client.buf.length))
      current := { w.current with shown := w.current.shown ++
        (w.client.poll parseKioskJson t.attempt (w.recv t.chunk reset)).2.toList } } := by
    simp only [System.poll, hconnected, hstays, Bool.not_true, Bool.false_eq_true, if_false,
      if_true]
  set taken := w.pending.take (min t.chunk (recvBufSize - w.client.buf.length)) with htaken
  set kept := w.pending.drop (min t.chunk (recvBufSize - w.client.buf.length)) with hkept
  have hsettled : w.client.poll parseKioskJson t.attempt (w.recv t.chunk reset) =
      w.client.settle (extract parseKioskJson (w.client.buf ++ taken)) := by
    rw [Client.poll, if_neg (by simp [hconnected]), System.recv_of_stays hconnected hstays,
      received_recvFrom _ h.room]
  have hlength : (w.client.buf ++ taken).length ≤ recvBufSize := by
    have := h.room
    rw [List.length_append, htaken, List.length_take]
    omega
  have hsplit : (w.client.buf ++ taken) ++ (kept ++ tail) = frames 4 (unseen.map payload) := by
    rw [← h.split, htaken, hkept]
    simp only [List.append_assoc]
    rw [← List.append_assoc (w.pending.take _), List.take_append_drop]
  have hsize : ∀ p ∈ unseen.map payload, p.length < 256 ^ 4 := by
    intro p hp
    obtain ⟨s, hs, rfl⟩ := List.mem_map.mp hp
    exact h.size s hs
  have hmap : ∀ l : List SharedState,
      (l.map payload).filterMap parseKioskJson = l.filterMap shownAs := fun l => by
    rw [List.filterMap_map]
    rfl
  rw [hsettled] at hstays
  obtain ⟨hroom, ps', hsuffix, hrest, hsame⟩ :=
    settle_extract parseKioskJson w.client hsize hlength hsplit hstays
  obtain ⟨unseen', rfl, hunseen⟩ := exists_unseen hsuffix
  rw [hmap, hmap] at hsame
  rw [hpoll, hsettled]
  refine ⟨unseen', hroom, ?_, h.whole, fun s hs => h.size s (hunseen.subset hs), ?_,
    hunseen.trans h.suffix⟩
  · simpa using hrest
  · simp only [h.seen, hsame, List.append_assoc]

theorem Sound.poll (hw : Sound w) (t : Turn) (reset : Bool) : Sound (w.poll t reset) := by
  cases hconnected : w.client.connected with
  | false =>
    have hempty := hw.apart hconnected
    have hpolled : w.client.poll parseKioskJson t.attempt (w.recv t.chunk reset) =
        (w.client.tryConnect t.attempt, none) := by
      rw [Client.poll, if_pos (by simp [hconnected])]
    have hpoll : w.poll t reset = if (w.client.tryConnect t.attempt).connected then
        { w with client := w.client.tryConnect t.attempt, pending := [], serverEnd := .backlog }
        else { w with client := w.client.tryConnect t.attempt } := by
      simp only [System.poll, hpolled, hconnected, Bool.not_false, if_true]
    rw [hpoll]
    split_ifs with hnow
    · have hbuf := tryConnect_buf hconnected hnow
      refine ⟨hw.earlier, fun _ => ⟨[], [], ?_, ?_, fun _ => rfl, by simp, ?_, ?_⟩,
        fun hapart => ?_⟩
      · simp [hbuf, recvBufSize]
      · simp [hbuf, frames]
      · simp [hempty]
      · simp
      · rw [hnow] at hapart
        cases hapart
    · exact ⟨hw.earlier, fun h => absurd h hnow, fun _ => hempty⟩
  | true =>
    cases hstays : (w.client.poll parseKioskJson t.attempt (w.recv t.chunk reset)).1.connected with
    | true =>
      obtain ⟨unseen, tail, h⟩ := hw.connected hconnected
      obtain ⟨unseen', h'⟩ := h.poll hconnected t reset hstays
      have hpoll : (w.poll t reset).earlier = w.earlier ∧ (w.poll t reset).client.connected =
        true := by
        simp [System.poll, hconnected, hstays]
      refine ⟨fun e he => hw.earlier e (hpoll.1 ▸ he), fun _ => ⟨unseen', tail, h'⟩,
        fun hapart => ?_⟩
      rw [hpoll.2] at hapart
      cases hapart
    | false =>
      have hpoll : (w.poll t reset).earlier = w.earlier ++ [w.current] ∧
          (w.poll t reset).client.connected = false ∧ (w.poll t reset).current = {} := by
        simp [System.poll, hconnected, hstays]
      refine ⟨fun e he => ?_, fun hapart => ?_, fun _ => hpoll.2.2⟩
      · rw [hpoll.1] at he
        obtain he | he := List.mem_append.mp he
        · exact hw.earlier e he
        · obtain rfl := List.mem_singleton.mp he
          exact hw.current_inOrder
      · rw [hpoll.2.1] at hapart
        cases hapart

theorem Sound.step (hw : Sound w) (e : SystemEvent) : Sound (w.step e) := by
  cases e with
  | round s sent => exact hw.serve s sent
  | poll t reset => exact hw.poll t reset
  | shutdown => exact hw.stop

end Steps

theorem sound_initial : Sound .initial :=
  ⟨fun _ he => absurd he List.not_mem_nil, nofun, fun _ => rfl⟩

theorem sound_run (events : List SystemEvent) : Sound (System.run events) := by
  have hfold : ∀ w, Sound w → Sound (events.foldl System.step w) := by
    induction events with
    | nil => exact fun w hw => hw
    | cons e events ih => exact fun w hw => ih _ (hw.step e)
  exact hfold _ sound_initial

def SystemEvent.snapshot? : SystemEvent → Option SharedState
  | .round s _ => some s
  | _ => none

theorem pushed_serve (w : System) (s : SharedState) (sent : SendEnd) :
    ((w.serve s sent).exchanges.flatMap (·.pushed)).Sublist
      (w.exchanges.flatMap (·.pushed) ++ [s]) := by
  unfold System.serve
  split_ifs
  · exact List.sublist_append_left _ _
  · exact List.sublist_append_left _ _
  · exact List.sublist_append_left _ _
  · cases sent <;> simp [System.send, System.exchanges]

theorem pushed_poll (w : System) (t : Turn) (reset : Bool) :
    (w.poll t reset).exchanges.flatMap (·.pushed) = w.exchanges.flatMap (·.pushed) := by
  unfold System.poll System.exchanges
  dsimp only
  split_ifs <;> simp

theorem pushed_run (events : List SystemEvent) :
    ((System.run events).exchanges.flatMap (·.pushed)).Sublist
      (events.filterMap SystemEvent.snapshot?) := by
  induction events using List.reverseRecOn with
  | nil => exact List.nil_sublist _
  | append_singleton events e ih =>
    rw [System.run, List.foldl_concat, List.filterMap_append]
    cases e with
    | round s sent => exact (pushed_serve _ s sent).trans (ih.append_right [s])
    | poll t reset =>
      change (((System.run events).poll t reset).exchanges.flatMap _).Sublist _
      rw [pushed_poll]
      exact ih.trans (List.sublist_append_left _ _)
    | shutdown => exact ih.trans (List.sublist_append_left _ _)

theorem shown_sublist {exchanges : List Exchange} (h : ∀ e ∈ exchanges, e.InOrder) :
    (exchanges.flatMap (·.shown)).Sublist
      ((exchanges.flatMap (·.pushed)).filterMap shownAs) := by
  induction exchanges with
  | nil => exact List.Sublist.refl _
  | cons e exchanges ih =>
    rw [List.forall_mem_cons] at h
    rw [List.flatMap_cons, List.flatMap_cons, List.filterMap_append]
    exact h.1.sublist.append (ih h.2)

/-- In whatever order rounds and polls come, and whatever fails: on every connection the display
shows what the first snapshots pushed there hold, and over the whole run snapshots of the server
in their order and each at most once. While the server keeps the connection and has pushed
nothing too large, polls show all that has arrived. -/
theorem display_shows (events : List SystemEvent) :
    let w := System.run events
    (∀ e ∈ w.exchanges, e.InOrder) ∧
      (w.exchanges.flatMap (·.shown)).Sublist
        ((events.filterMap SystemEvent.snapshot?).filterMap shownAs) ∧
      (w.client.connected = true → w.serverEnd ≠ .closed → w.pending = [] →
        (∀ s ∈ w.current.pushed, (payload s).length ≤ 8188) →
          ∀ more, (pollAll parseKioskJson more ⟨w.client, []⟩).2 =
            ((w.current.pushed.filterMap shownAs).drop w.current.shown.length).take
              more.length) := by
  intro w
  have hw : Sound w := sound_run events
  have horder : ∀ e ∈ w.exchanges, e.InOrder := by
    intro e he
    obtain he | he := List.mem_append.mp he
    · exact hw.earlier e he
    · obtain rfl := List.mem_singleton.mp he
      exact hw.current_inOrder
  refine ⟨horder, (shown_sublist horder).trans ((pushed_run events).filterMap shownAs), ?_⟩
  intro hconnected hopen hpending hfits more
  obtain ⟨unseen, tail, h⟩ := hw.connected hconnected
  obtain rfl := h.whole hopen
  have haligned : Aligned ⟨w.client, []⟩ (unseen.map payload) := by
    refine ⟨hconnected, h.room, ?_, fun p hp => ?_⟩
    · simpa [hpending] using h.split
    · obtain ⟨s, hs, rfl⟩ := List.mem_map.mp hp
      exact hfits s (h.suffix.subset hs)
  rw [pollAll_drain parseKioskJson haligned rfl, h.seen, List.drop_left, List.filterMap_map]
  rfl

end MowerRover.Kiosk
