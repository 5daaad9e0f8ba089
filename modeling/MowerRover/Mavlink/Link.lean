import MowerRover.Mavlink.Message

/-!
# An arbitrary autopilot behind a FIFO link

Messages of any kind and content arrive at any time; `recv_match` takes them
from the front of the queue and discards those whose type was not asked for.
The events of a run list what was sent, what a poll returned and what it threw
away, in order. What sits at the other end is a
`Peer`; the laws that later proofs use hold for every one of them and are
collected in `IsLink`.
-/

namespace MowerRover.Mavlink

open Effects

inductive LinkEvent
  | sent (target : Conn) (msg : Msg)
  | took (msg : Msg)
  | skipped (msg : Msg)
  deriving DecidableEq, Repr

namespace LinkEvent

def sentMsg : LinkEvent → Option Msg
  | .sent _ msg => some msg
  | _ => none

/-- A message that left the queue, returned or discarded. -/
def takenMsg : LinkEvent → Option Msg
  | .took msg | .skipped msg => some msg
  | .sent _ _ => none

end LinkEvent

def sentMsgs (events : List LinkEvent) : List Msg := events.filterMap LinkEvent.sentMsg

def takenMsgs (events : List LinkEvent) : List Msg := events.filterMap LinkEvent.takenMsg

@[simp] theorem sentMsgs_nil : sentMsgs [] = [] := rfl

@[simp] theorem sentMsgs_append (a b : List LinkEvent) :
    sentMsgs (a ++ b) = sentMsgs a ++ sentMsgs b := List.filterMap_append

@[simp] theorem sentMsgs_cons_sent (c : Conn) (m : Msg) (events : List LinkEvent) :
    sentMsgs (.sent c m :: events) = m :: sentMsgs events := rfl

@[simp] theorem sentMsgs_cons_took (m : Msg) (events : List LinkEvent) :
    sentMsgs (.took m :: events) = sentMsgs events := rfl

@[simp] theorem sentMsgs_cons_skipped (m : Msg) (events : List LinkEvent) :
    sentMsgs (.skipped m :: events) = sentMsgs events := rfl

@[simp] theorem takenMsgs_nil : takenMsgs [] = [] := rfl

@[simp] theorem takenMsgs_append (a b : List LinkEvent) :
    takenMsgs (a ++ b) = takenMsgs a ++ takenMsgs b := List.filterMap_append

@[simp] theorem takenMsgs_cons_sent (c : Conn) (m : Msg) (events : List LinkEvent) :
    takenMsgs (.sent c m :: events) = takenMsgs events := rfl

@[simp] theorem takenMsgs_cons_took (m : Msg) (events : List LinkEvent) :
    takenMsgs (.took m :: events) = m :: takenMsgs events := rfl

@[simp] theorem takenMsgs_cons_skipped (m : Msg) (events : List LinkEvent) :
    takenMsgs (.skipped m :: events) = m :: takenMsgs events := rfl

@[simp] theorem sentMsgs_skipped (ms : List Msg) : sentMsgs (ms.map .skipped) = [] := by
  induction ms with
  | nil => rfl
  | cons m ms ih => exact ih

@[simp] theorem takenMsgs_skipped (ms : List Msg) : takenMsgs (ms.map .skipped) = ms := by
  induction ms with
  | nil => rfl
  | cons m ms ih => exact congrArg (m :: ·) ih

theorem mem_takenMsgs {m : Msg} {events : List LinkEvent} :
    m ∈ takenMsgs events ↔ .took m ∈ events ∨ .skipped m ∈ events := by
  simp only [takenMsgs, List.mem_filterMap]
  constructor
  · rintro ⟨e, he, hm⟩
    cases e with
    | sent c x => simp [LinkEvent.takenMsg] at hm
    | took x => exact .inl (Option.some.inj hm ▸ he)
    | skipped x => exact .inr (Option.some.inj hm ▸ he)
  · rintro (he | he)
    · exact ⟨_, he, rfl⟩
    · exact ⟨_, he, rfl⟩

/-- `recv_match` on a queue: discard up to the first message of a type asked for. -/
def takeMatch (types : List MsgType) : List Msg → Option Msg × List Msg × List LinkEvent
  | [] => (none, [], [])
  | m :: ms =>
    if m.getType ∈ types then (some m, ms, [.took m])
    else
      let rest := takeMatch types ms
      (rest.1, rest.2.1, .skipped m :: rest.2.2)

/-- What sits at the other end of a link: how it moves by itself, and what the
calls of the client do to it. -/
structure Peer (μ W : Type) where
  move : W → μ → W
  send : W → Conn → Msg → W
  inbox : W → List Msg
  /-- the client has polled and left these in its inbox -/
  leave : W → List Msg → W

namespace Peer

variable {μ W : Type} (peer : Peer μ W)

def answer (budget : ℕ) : Handler linkSignature W LinkEvent
  | .send target msg, w => ((), peer.send w target msg, [.sent target msg])
  | .recvMatch types, w =>
    let taken := takeMatch types (peer.inbox w)
    (taken.1, peer.leave w taken.2.1, taken.2.2)
  | .polls _, w => (budget, w, [])

/-- The client's view of a peer that moves between its calls. -/
def link : Handler linkSignature (Scheduled μ W) LinkEvent :=
  schedule (fun m w => (peer.move w m, [])) peer.answer

/-- The peer when the next call is answered. -/
def moved (s : Scheduled μ W) : W :=
  (applyMoves (fun m w => (peer.move w m, ([] : List LinkEvent)))
    (s.turns.headD ⟨[], 0⟩).moves s.state).1

end Peer

/-- Nothing but a queue, into which anything may come at any time. -/
def anyPeer : Peer Msg (List Msg) where
  move inbox m := inbox ++ [m]
  send inbox _ _ := inbox
  inbox := id
  leave _ rest := rest

/-- The client's inbox and everything that is still to arrive. -/
abbrev Link := Scheduled Msg (List Msg)

def link : Handler linkSignature Link LinkEvent := anyPeer.link

/-- What the events of a handler say about its answers. -/
structure IsLink {σ : Type} (h : Handler linkSignature σ LinkEvent) : Prop where
  send : ∀ c m s, (h (.send c m) s).2.2 = [.sent c m]
  polls : ∀ t s, (h (.polls t) s).2.2 = []
  recvMatch : ∀ types s, ∃ skipped : List Msg, (∀ m ∈ skipped, m.getType ∉ types) ∧
    (h (.recvMatch types) s).2.2 =
      skipped.map .skipped ++ (h (.recvMatch types) s).1.toList.map .took ∧
    ∀ m, (h (.recvMatch types) s).1 = some m → m.getType ∈ types

theorem takeMatch_spec (types : List MsgType) (inbox : List Msg) :
    ∃ skipped : List Msg, (∀ m ∈ skipped, m.getType ∉ types) ∧
      (takeMatch types inbox).2.2 =
        skipped.map .skipped ++ (takeMatch types inbox).1.toList.map .took ∧
      (∀ m, (takeMatch types inbox).1 = some m → m.getType ∈ types) ∧
      inbox = skipped ++ (takeMatch types inbox).1.toList ++ (takeMatch types inbox).2.1 := by
  induction inbox with
  | nil => exact ⟨[], by simp, by simp [takeMatch], by simp [takeMatch], by simp [takeMatch]⟩
  | cons m ms ih =>
    by_cases hm : m.getType ∈ types
    · exact ⟨[], by simp, by simp [takeMatch, hm], by simp [takeMatch, hm],
        by simp [takeMatch, hm]⟩
    · obtain ⟨skipped, hs, hev, hres, hq⟩ := ih
      refine ⟨m :: skipped, ?_, ?_, ?_, ?_⟩
      · simpa [hm] using hs
      · simp [takeMatch, hm, hev]
      · simpa [takeMatch, hm] using hres
      · simpa [takeMatch, hm] using hq

theorem takeMatch_split (types : List MsgType) (inbox : List Msg) :
    inbox = takenMsgs (takeMatch types inbox).2.2 ++ (takeMatch types inbox).2.1 := by
  obtain ⟨skipped, -, hev, -, hq⟩ := takeMatch_spec types inbox
  rw [hev]
  cases htaken : (takeMatch types inbox).1 <;> simpa [htaken] using hq

/-- Calls that send nothing but messages of a kind. -/
def SendsOnly (kind : Msg → Prop) : LinkOp → Prop
  | .send _ msg => kind msg
  | _ => True

namespace Peer

variable {μ W : Type} (peer : Peer μ W)

theorem applyMoves_events (ms : List μ) (w : W) :
    (applyMoves (fun m w => (peer.move w m, ([] : List LinkEvent))) ms w).2 = [] := by
  induction ms generalizing w with
  | nil => rfl
  | cons m ms ih => simp [applyMoves, ih]

theorem isLink : IsLink peer.link where
  send c m s := by simp [link, schedule, answer, applyMoves_events]
  polls t s := by simp [link, schedule, answer, applyMoves_events]
  recvMatch types s := by
    obtain ⟨skipped, hs, hev, hres, -⟩ := takeMatch_spec types (peer.inbox (peer.moved s))
    exact ⟨skipped, hs, by
      simpa [link, schedule, answer, applyMoves_events, moved] using hev, hres⟩

theorem moved_invariant {I : W → Prop} (hmove : ∀ m w, I w → I (peer.move w m))
    {s : Scheduled μ W} (hs : I s.state) : I (peer.moved s) :=
  applyMoves_history (I := fun (_ : List LinkEvent) w => I w) (fun m _ w => hmove m w) _ [] _ hs

theorem link_send (c : Conn) (m : Msg) (s : Scheduled μ W) :
    (peer.link (.send c m) s).2.1.state = peer.send (peer.moved s) c m := rfl

/-- What every move of the peer and every allowed call keep true of the messages
taken so far and the peer, every run keeps true. -/
theorem run_taken {α : Type} {kind : Msg → Prop} {I : List Msg → W → Prop}
    (hmove : ∀ m taken w, I taken w → I taken (peer.move w m))
    (hsend : ∀ c m taken w, kind m → I taken w → I taken (peer.send w c m))
    (htake : ∀ got rest taken w, peer.inbox w = got ++ rest → I taken w →
      I (taken ++ got) (peer.leave w rest))
    {p : LinkM α} (hp : p.Calls (SendsOnly kind)) (taken : List Msg) (s : Scheduled μ W)
    (hs : I taken s.state) :
    I (taken ++ takenMsgs (p.run peer.link s).events) (p.run peer.link s).state.state := by
  have hbase : ∀ budget op ev w, SendsOnly kind op → I (taken ++ takenMsgs ev) w →
      I (taken ++ takenMsgs (ev ++ (peer.answer budget op w).2.2))
        (peer.answer budget op w).2.1 := by
    intro budget op ev w ho hI
    cases op with
    | send c m => simpa [answer] using hsend c m _ w ho hI
    | polls t => simpa [answer] using hI
    | recvMatch types =>
      simpa [answer] using htake _ _ _ w (takeMatch_split types (peer.inbox w)) hI
  have hstep : ∀ m ev w, I (taken ++ takenMsgs ev) w →
      I (taken ++ takenMsgs (ev ++ (peer.move w m, ([] : List LinkEvent)).2)) (peer.move w m) := by
    intro m ev w hI
    simpa using hmove m _ w hI
  have := run_schedule_history (I := fun ev w => I (taken ++ takenMsgs ev) w) hstep hbase hp [] s
    (by simpa using hs)
  simpa [link] using this

end Peer

theorem isLink_link : IsLink link := anyPeer.isLink

theorem SendsOnly.mono {kind kind' : Msg → Prop} (himp : ∀ m, kind m → kind' m) (op : LinkOp)
    (h : SendsOnly kind op) : SendsOnly kind' op := by
  cases op with
  | send c m => exact himp m h
  | recvMatch types => trivial
  | polls timeout => trivial

theorem calls_any {α : Type} (p : LinkM α) : p.Calls (SendsOnly fun _ => True) :=
  p.calls_true.mono fun op _ => by cases op <;> trivial

theorem sentMsgs_of_calls {σ α : Type} {h : Handler linkSignature σ LinkEvent} (hl : IsLink h)
    {kind : Msg → Prop} {p : LinkM α} (hp : p.Calls (SendsOnly kind)) (s : σ) :
    ∀ m ∈ sentMsgs (p.run h s).events, kind m := by
  have hev : ∀ e ∈ (p.run h s).events, ∀ m, e.sentMsg = some m → kind m := by
    refine Program.run_events (fun op s ho e he m hm => ?_) hp s
    cases op with
    | send c msg =>
      rw [hl.send, List.mem_singleton] at he
      subst he
      exact Option.some.inj hm ▸ ho
    | polls t => simp [hl.polls] at he
    | recvMatch types =>
      obtain ⟨skipped, -, hev, -⟩ := hl.recvMatch types s
      rw [hev] at he
      have hm' : m ∈ sentMsgs _ := List.mem_filterMap.mpr ⟨e, he, hm⟩
      cases hr : (h (.recvMatch types) s).1 <;> simp [hr] at hm'
  intro m hm
  obtain ⟨e, he, hem⟩ := List.mem_filterMap.mp hm
  exact hev e he m hem

theorem calls_send {kind : Msg → Prop} {conn : Conn} {msg : Msg} (hk : kind msg) :
    (send conn msg).Calls (SendsOnly kind) := Program.calls_perform (S := linkSignature) hk

theorem calls_recvMatch (kind : Msg → Prop) (types : List MsgType) :
    (recvMatch types).Calls (SendsOnly kind) := Program.calls_perform (S := linkSignature) trivial

theorem calls_polls (kind : Msg → Prop) (timeout : ℚ) :
    (polls timeout).Calls (SendsOnly kind) := Program.calls_perform (S := linkSignature) trivial

theorem calls_waitFor {β : Type} (kind : Msg → Prop) (types : List MsgType)
    (accept : Msg → Option β) (n : ℕ) : (waitFor types accept n).Calls (SendsOnly kind) := by
  induction n with
  | zero => trivial
  | succ n ih =>
    refine (calls_recvMatch kind types).bind fun msg => ?_
    cases msg with
    | none => exact ih
    | some m =>
      cases hm : accept m with
      | none => simpa [hm] using ih
      | some b => simp [hm]

theorem calls_waitWithin {β : Type} (kind : Msg → Prop) (timeout : ℚ) (types : List MsgType)
    (accept : Msg → Option β) : (waitWithin timeout types accept).Calls (SendsOnly kind) :=
  (calls_polls kind timeout).bind fun n => calls_waitFor kind types accept n

section Wait

variable {σ β : Type} {h : Handler linkSignature σ LinkEvent}

theorem run_send (hl : IsLink h) (c : Conn) (m : Msg) (s : σ) :
    (send c m).run h s = ⟨.ok (), (h (.send c m) s).2.1, [.sent c m]⟩ := by
  rw [← hl.send c m s]
  exact Program.run_perform h (.send c m) s

theorem run_polls (hl : IsLink h) (t : ℚ) (s : σ) :
    (polls t).run h s = ⟨.ok (h (.polls t) s).1, (h (.polls t) s).2.1, []⟩ := by
  rw [← hl.polls t s]
  exact Program.run_perform h (.polls t) s

theorem run_recvMatch (types : List MsgType) (s : σ) :
    (recvMatch types).run h s =
      ⟨.ok (h (.recvMatch types) s).1, (h (.recvMatch types) s).2.1,
        (h (.recvMatch types) s).2.2⟩ :=
  Program.run_perform h (.recvMatch types) s

/-- Events in which nothing was sent and everything returned was asked for and
refused; the discarded messages are of other types. -/
structure Refused (types : List MsgType) (accept : Msg → Option β)
    (events : List LinkEvent) : Prop where
  nothingSent : sentMsgs events = []
  took : ∀ m, .took m ∈ events → m.getType ∈ types ∧ accept m = none
  skipped : ∀ m, .skipped m ∈ events → m.getType ∉ types

theorem Refused.append {types : List MsgType} {accept : Msg → Option β}
    {a b : List LinkEvent} (ha : Refused types accept a) (hb : Refused types accept b) :
    Refused types accept (a ++ b) where
  nothingSent := by simp [ha.nothingSent, hb.nothingSent]
  took m hm := (List.mem_append.mp hm).elim (ha.took m) (hb.took m)
  skipped m hm := (List.mem_append.mp hm).elim (ha.skipped m) (hb.skipped m)

theorem refused_skipped (types : List MsgType) (accept : Msg → Option β) {ms : List Msg}
    (h : ∀ m ∈ ms, m.getType ∉ types) : Refused types accept (ms.map .skipped) where
  nothingSent := sentMsgs_skipped ms
  took m hm := by simp at hm
  skipped m hm := h m (by simpa using hm)

/-- A wait ends at the first message it accepts, or accepts none. -/
inductive Waited (types : List MsgType) (accept : Msg → Option β) :
    Option β → List LinkEvent → Prop
  | timeout {events} : Refused types accept events → Waited types accept none events
  | accepted {events m b} : Refused types accept events → m.getType ∈ types →
      accept m = some b → Waited types accept (some b) (events ++ [.took m])

theorem Waited.after {types : List MsgType} {accept : Msg → Option β} {res : Option β}
    {a b : List LinkEvent} (ha : Refused types accept a) (hb : Waited types accept res b) :
    Waited types accept res (a ++ b) := by
  cases hb with
  | timeout hb => exact .timeout (ha.append hb)
  | accepted hb hm hacc =>
    rw [← List.append_assoc]
    exact .accepted (ha.append hb) hm hacc

theorem Waited.nothingSent {types : List MsgType} {accept : Msg → Option β} {res : Option β}
    {events : List LinkEvent} (w : Waited types accept res events) : sentMsgs events = [] := by
  cases w with
  | timeout r => exact r.nothingSent
  | accepted r _ _ => simp [r.nothingSent]

theorem Waited.accepted_took {types : List MsgType} {accept : Msg → Option β} {b : β}
    {events : List LinkEvent} (w : Waited types accept (some b) events) :
    ∃ m, .took m ∈ events ∧ accept m = some b := by
  cases w with
  | @accepted _ m _ _ _ hacc => exact ⟨m, by simp, hacc⟩

theorem Waited.accepted_mem {types : List MsgType} {accept : Msg → Option β} {b : β}
    {events : List LinkEvent} (w : Waited types accept (some b) events) :
    ∃ m ∈ takenMsgs events, accept m = some b := by
  obtain ⟨m, hm, hacc⟩ := w.accepted_took
  exact ⟨m, mem_takenMsgs.mpr (.inl hm), hacc⟩

theorem waitFor_waited (hl : IsLink h) (types : List MsgType) (accept : Msg → Option β) (n : ℕ)
    (s : σ) : ∃ res, ((waitFor types accept n).run h s).result = .ok res ∧
      Waited types accept res ((waitFor types accept n).run h s).events := by
  induction n generalizing s with
  | zero => exact ⟨none, rfl, .timeout ⟨rfl, by simp [waitFor], by simp [waitFor]⟩⟩
  | succ n ih =>
    obtain ⟨skipped, hs, hev, hres⟩ := hl.recvMatch types s
    have hskip := refused_skipped types accept hs
    simp only [waitFor, Program.run_bind, run_recvMatch, Outcome.andThen_mk_ok,
      Outcome.after_result, Outcome.after_events, hev]
    obtain ⟨res, hr, w⟩ := ih (h (.recvMatch types) s).2.1
    cases hm : (h (.recvMatch types) s).1 with
    | none => exact ⟨res, hr, by simpa using w.after hskip⟩
    | some m =>
      cases hacc : accept m with
      | none =>
        have hm1 : Refused types accept [.took m] :=
          ⟨rfl, by simp [hres m hm, hacc], by simp⟩
        exact ⟨res, by simpa [hacc] using hr, by
          simpa [hacc] using w.after (hskip.append hm1)⟩
      | some b => exact ⟨some b, by simp [hacc], by
          simpa [hacc] using Waited.accepted hskip (hres m hm) hacc⟩

theorem waitWithin_waited (hl : IsLink h) (t : ℚ) (types : List MsgType)
    (accept : Msg → Option β) (s : σ) :
    ∃ res, ((waitWithin t types accept).run h s).result = .ok res ∧
      Waited types accept res ((waitWithin t types accept).run h s).events := by
  simp only [waitWithin, Program.run_bind, run_polls hl, Outcome.andThen_mk_ok,
    Outcome.after_nil]
  exact waitFor_waited hl types accept _ _

end Wait

end MowerRover.Mavlink
