import MowerRover.Kiosk.SocketClient

/-!
# Frames over the socket

The server sends one frame per payload, and every poll receives some bytes of
what is still on its way, or none. The client stays on the boundaries of the
frames however the bytes are split: the polls hand out the accepted payloads in
order, and once everything has arrived each further poll hands out one.
-/

namespace MowerRover.Kiosk

open Numeric Json

/-- `recv` of up to `chunk` bytes of those on their way; with none there it would block, and
without space it returns zero. -/
def recvFrom (pending : List UInt8) (chunk space : ℕ) : Recv space :=
  if space = 0 then .closed
  else if h : pending.take (min chunk space) = [] then .again
  else .data (pending.take (min chunk space)) h (by rw [List.length_take]; omega)

/-- The client with the bytes the server has sent or will send. -/
structure Link where
  client : Client
  pending : List UInt8

structure Turn where
  attempt : Attempt
  chunk : ℕ

variable {δ : Type} (parse : List UInt8 → Option δ)

def pollLink (t : Turn) (l : Link) : Link × Option δ :=
  let polled := l.client.poll parse t.attempt (recvFrom l.pending t.chunk)
  let taken := if l.client.connected then min t.chunk (recvBufSize - l.client.buf.length) else 0
  (⟨polled.1, l.pending.drop taken⟩, polled.2)

/-- The results of a sequence of polls that are not null. -/
def pollAll : List Turn → Link → Link × List δ
  | [], l => (l, [])
  | t :: ts, l =>
    let first := pollLink parse t l
    let rest := pollAll ts first.1
    (rest.1, first.2.toList ++ rest.2)

/-- No payload is too large for the buffer. -/
def Fits (ps : List (List UInt8)) : Prop := ∀ p ∈ ps, p.length ≤ recvBufSize - 4

/-- The client is connected and what it holds, with what is on its way, are the frames of the
remaining payloads. -/
structure Aligned (l : Link) (ps : List (List UInt8)) : Prop where
  connected : l.client.connected = true
  room : l.client.buf.length < recvBufSize
  split : l.client.buf ++ l.pending = frames 4 ps
  fits : Fits ps

theorem extract_aligned {ps : List (List UInt8)} (hfits : Fits ps) {buf pending : List UInt8}
    (hsplit : buf ++ pending = frames 4 ps) :
    (∃ rest ps', extract parse buf = .waiting rest ∧ rest ++ pending = frames 4 ps' ∧
        ps.filterMap parse = ps'.filterMap parse ∧ ps' <:+ ps ∧ (pending = [] → ps' = [])) ∨
      ∃ data rest ps', extract parse buf = .accepted data rest ∧ rest ++ pending = frames 4 ps' ∧
        ps.filterMap parse = data :: ps'.filterMap parse ∧ ps' <:+ ps := by
  induction ps generalizing buf with
  | nil =>
    obtain ⟨rfl, rfl⟩ := List.append_eq_nil_iff.mp hsplit
    exact .inl ⟨[], [], by simp [extract], rfl, rfl, List.suffix_refl _, fun _ => rfl⟩
  | cons p ps ih =>
    rw [Fits, List.forall_mem_cons] at hfits
    have hp : p.length < 256 ^ 4 := by
      have := hfits.1
      unfold recvBufSize at this
      omega
    rw [frames_cons] at hsplit
    have hwhole := whole_of_pending_nil hsplit
    by_cases hshort : buf.length < 4
    · refine .inl ⟨buf, p :: ps, by rw [extract, if_pos hshort], hsplit, rfl,
        List.suffix_refl _, ?_⟩
      intro hpending
      have := hwhole hpending
      omega
    have hheader := header_eq hsplit (not_lt.mp hshort) hp
    by_cases hwait : buf.length < 4 + p.length
    · refine .inl ⟨buf, p :: ps, ?_, hsplit, rfl, List.suffix_refl _, ?_⟩
      · rw [extract, if_neg hshort, hheader, if_neg (not_lt.mpr hfits.1), if_pos hwait]
      · intro hpending
        have := hwhole hpending
        omega
    obtain ⟨hpayload, hrest⟩ := cut_frame hsplit (not_lt.mp hwait)
    cases hparse : parse p with
    | some data =>
      have hextract : extract parse buf = .accepted data (buf.drop (4 + p.length)) := by
        rw [extract, if_neg hshort, hheader, if_neg (not_lt.mpr hfits.1), if_neg hwait, hpayload,
          hparse]
      exact .inr ⟨data, _, ps, hextract, hrest, by simp [hparse], List.suffix_cons p ps⟩
    | none =>
      have hextract : extract parse buf = extract parse (buf.drop (4 + p.length)) := by
        rw [extract, if_neg hshort, hheader, if_neg (not_lt.mpr hfits.1), if_neg hwait, hpayload,
          hparse]
      rw [hextract, List.filterMap_cons_none hparse]
      rcases ih hfits.2 hrest with ⟨rest, ps', h, h1, h2, h3, h4⟩ | ⟨data, rest, ps', h, h1, h2, h3⟩
      · exact .inl ⟨rest, ps', h, h1, h2, h3.trans (List.suffix_cons p ps), h4⟩
      · exact .inr ⟨data, rest, ps', h, h1, h2, h3.trans (List.suffix_cons p ps)⟩

/-- A poll hands out the next accepted payload or, when there is no whole one, nothing. -/
theorem pollLink_aligned {l : Link} {ps : List (List UInt8)} (hl : Aligned l ps) (t : Turn) :
    ∃ ps', Aligned (pollLink parse t l).1 ps' ∧
      ps.filterMap parse = (pollLink parse t l).2.toList ++ ps'.filterMap parse ∧
      (l.pending = [] → (pollLink parse t l).1.pending = [] ∧
        ((pollLink parse t l).2 = none → ps' = [])) := by
  obtain ⟨hconnected, hroom, hsplit, hfits⟩ := hl
  set taken := l.pending.take (min t.chunk (recvBufSize - l.client.buf.length)) with htaken
  set pending := l.pending.drop (min t.chunk (recvBufSize - l.client.buf.length)) with hpending
  have hreceived : l.client.received (recvFrom l.pending t.chunk _) =
      some (l.client.buf ++ taken) := by
    rw [recvFrom, if_neg (by omega)]
    split_ifs with hempty
    · simp [Client.received, htaken, hempty]
    · rfl
  have hsplit' : (l.client.buf ++ taken) ++ pending = frames 4 ps := by
    rw [List.append_assoc, htaken, hpending, List.take_append_drop, hsplit]
  have hlen : (l.client.buf ++ taken).length ≤ recvBufSize := by
    rw [List.length_append, htaken, List.length_take]
    omega
  have hnil : l.pending = [] → pending = [] := fun h => by simp [hpending, h]
  have hbound := extract_room parse _ hlen
  have hpoll : pollLink parse t l =
      (⟨(l.client.settle (extract parse (l.client.buf ++ taken))).1, pending⟩,
        (l.client.settle (extract parse (l.client.buf ++ taken))).2) := by
    rw [pollLink, Client.poll, if_neg (by simp [hconnected]), if_pos hconnected, hreceived]
  rcases extract_aligned parse hfits hsplit' with
    ⟨rest, ps', h, hrest, hsame, hsuffix, hdone⟩ | ⟨data, rest, ps', h, hrest, hsame, hsuffix⟩
  · rw [h] at hpoll hbound
    rw [hpoll]
    refine ⟨ps', ⟨hconnected, hbound, hrest, fun p hp => hfits p (hsuffix.subset hp)⟩, hsame, ?_⟩
    exact fun hempty => ⟨hnil hempty, fun _ => hdone (hnil hempty)⟩
  · rw [h] at hpoll hbound
    rw [hpoll]
    refine ⟨ps', ⟨hconnected, hbound, hrest, fun p hp => hfits p (hsuffix.subset hp)⟩, hsame, ?_⟩
    exact fun hempty => ⟨hnil hempty, nofun⟩

theorem pollAll_aligned {l : Link} {ps : List (List UInt8)} (hl : Aligned l ps)
    (turns : List Turn) :
    ∃ ps', Aligned (pollAll parse turns l).1 ps' ∧
      ps.filterMap parse = (pollAll parse turns l).2 ++ ps'.filterMap parse := by
  induction turns generalizing l ps with
  | nil => exact ⟨ps, hl, rfl⟩
  | cons t turns ih =>
    obtain ⟨ps₁, hl₁, hsame₁, -⟩ := pollLink_aligned parse hl t
    obtain ⟨ps₂, hl₂, hsame₂⟩ := ih hl₁
    refine ⟨ps₂, hl₂, ?_⟩
    rw [hsame₁, hsame₂, pollAll, List.append_assoc]

theorem pollAll_drain {l : Link} {ps : List (List UInt8)} (hl : Aligned l ps)
    (hpending : l.pending = []) (more : List Turn) :
    (pollAll parse more l).2 = (ps.filterMap parse).take more.length := by
  induction more generalizing l ps with
  | nil => simp [pollAll]
  | cons t more ih =>
    obtain ⟨ps', hl', hsame, hdone⟩ := pollLink_aligned parse hl t
    obtain ⟨hpending', hlast⟩ := hdone hpending
    rw [pollAll, ih hl' hpending', hsame, List.length_cons]
    cases hresult : (pollLink parse t l).2 with
    | none => simp [hlast hresult]
    | some data => simp

/-- However the frames of the payloads are split, the polls of a connected client hand out what
the accepted payloads hold, in order and each once, and nothing disconnects it. -/
theorem polls_deliver (payloads : List (List UInt8))
    (hfits : ∀ p ∈ payloads, p.length ≤ 8188) (client : Client)
    (hconnected : client.connected = true) (hbuf : client.buf = []) (turns : List Turn) :
    let r := pollAll parse turns ⟨client, frames 4 payloads⟩
    r.1.client.connected = true ∧
      ∃ rest, payloads.filterMap parse = r.2 ++ rest ∧
        (r.1.pending = [] → ∀ more, (pollAll parse more r.1).2 = rest.take more.length) := by
  have hstart : Aligned ⟨client, frames 4 payloads⟩ payloads :=
    ⟨hconnected, by simp [hbuf, recvBufSize], by simp [hbuf], hfits⟩
  obtain ⟨ps, hl, hsame⟩ := pollAll_aligned parse hstart turns
  exact ⟨hl.connected, _, hsame, fun hpending more => pollAll_drain parse hl hpending more⟩

theorem polls_deliver_connected :
    let client := Client.init.tryConnect ⟨1000, true, true, true⟩
    let payloads := [encodeUtf8 ['x'], encodeUtf8 ['\x7b', '\x7d']]
    let r := pollAll parseKioskJson [⟨⟨1100, true, true, true⟩, 3⟩, ⟨⟨1200, true, true, true⟩, 9⟩]
      ⟨client, frames 4 payloads⟩
    r.1.client.connected = true ∧
      ∃ rest, payloads.filterMap parseKioskJson = r.2 ++ rest ∧
        (r.1.pending = [] → ∀ more, (pollAll parseKioskJson more r.1).2 = rest.take more.length) :=
  polls_deliver _ _ (by decide) _ (by decide) (by decide) _

end MowerRover.Kiosk
