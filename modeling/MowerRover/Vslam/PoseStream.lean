import MowerRover.Vslam.Pose

/-!
# The pose stream between the SLAM node and the bridge

The node writes pose structs to the client it has and drops the client after a
write that was not accepted whole. The kernel hands the bytes of a connection
to the reader in segments, cut as it likes, and ends it at any byte. The reader
collects 118 bytes, decodes them and starts over; after a socket error it
connects again.
-/

namespace MowerRover.Vslam

open Numeric

/-- One connection as the node sees it: the messages passed to `write`, and the
bytes the kernel accepted. -/
structure Connection where
  messages : List VslamPoseMsg
  accepted : List UInt8

structure SocketServer where
  client : Option Connection
  closed : List Connection

namespace SocketServer

def connections (srv : SocketServer) : List Connection := srv.closed ++ srv.client.toList

/-- With a client waiting at the listening socket. -/
def socketAcceptNonblock (srv : SocketServer) : SocketServer :=
  match srv.client with
  | some _ => srv
  | none => { srv with client := some ⟨[], []⟩ }

/-- The answer of `write` is `none` for an error. -/
def socketSendPose (srv : SocketServer) (msg : VslamPoseMsg) (n : Option (Fin 119)) :
    Bool × SocketServer :=
  match srv.client with
  | none => (true, srv)
  | some c =>
    let c' : Connection := ⟨c.messages ++ [msg], c.accepted ++ msg.bytes.take
      ((n.map (·.val)).getD 0)⟩
    if n ≠ some 118 then (false, ⟨none, srv.closed ++ [c']⟩)
    else (true, { srv with client := some c' })

def socketServerClose (srv : SocketServer) : SocketServer := ⟨none, srv.connections⟩

end SocketServer

inductive NodeStep
  | accept
  | send (msg : VslamPoseMsg) (n : Option (Fin 119))
  /-- the node ends and is started again -/
  | restart

def NodeStep.apply (srv : SocketServer) : NodeStep → SocketServer
  | .accept => srv.socketAcceptNonblock
  | .send msg n => (srv.socketSendPose msg n).2
  | .restart => srv.socketServerClose

def runNode (steps : List NodeStep) : SocketServer := steps.foldl NodeStep.apply ⟨none, []⟩

/-- The bytes of whole messages, one after the other. -/
def imageOf (messages : List VslamPoseMsg) : List UInt8 := messages.flatMap VslamPoseMsg.bytes

/-- A client that is still served has been sent whole messages only. -/
structure SocketServer.Aligned (srv : SocketServer) : Prop where
  client : ∀ c ∈ srv.client, c.accepted = imageOf c.messages
  closed : ∀ c ∈ srv.closed, c.accepted <+: imageOf c.messages

theorem SocketServer.Aligned.connections {srv : SocketServer} (h : srv.Aligned) :
    ∀ c ∈ srv.connections, c.accepted <+: imageOf c.messages := by
  intro c hc
  rcases List.mem_append.mp hc with hc | hc
  · exact h.closed c hc
  · exact (h.client c (Option.mem_toList.mp hc)) ▸ List.prefix_rfl

theorem aligned_apply {srv : SocketServer} (h : srv.Aligned) (step : NodeStep) :
    (step.apply srv).Aligned := by
  cases step with
  | accept =>
    simp only [NodeStep.apply, SocketServer.socketAcceptNonblock]
    split
    · exact h
    · refine ⟨?_, h.closed⟩
      intro c hc
      obtain rfl := Option.some.inj hc
      rfl
  | send msg n =>
    simp only [NodeStep.apply, SocketServer.socketSendPose]
    split
    · exact h
    · rename_i c hc
      have hacc := h.client c hc
      split
      · refine ⟨by simp, ?_⟩
        intro c' hc'
        rcases List.mem_append.mp hc' with hc' | hc'
        · exact h.closed c' hc'
        · obtain rfl := List.mem_singleton.mp hc'
          simp only [hacc, imageOf, List.flatMap_append, List.flatMap_singleton]
          exact List.prefix_append_right_inj _ |>.mpr ( List.take_prefix _ _)
      · rename_i hn
        obtain rfl := not_not.mp hn
        refine ⟨?_, h.closed⟩
        intro c' hc'
        obtain rfl := Option.some.inj hc'
        have hall : msg.bytes.take 118 = msg.bytes := List.take_of_length_le msg.bytes_length.le
        simp [imageOf, hacc, hall]
  | restart => exact ⟨by simp [NodeStep.apply, SocketServer.socketServerClose], h.connections⟩

theorem aligned_runNode (steps : List NodeStep) : (runNode steps).Aligned := by
  have hrun : ∀ srv : SocketServer, srv.Aligned → (steps.foldl NodeStep.apply srv).Aligned := by
    induction steps with
    | nil => exact fun srv h => h
    | cons step steps ih => exact fun srv h => ih _ (aligned_apply h step)
  exact hrun _ ⟨by simp, by simp⟩

/-- How a connection ends once its bytes are used up. -/
inductive Ending
  | eof
  | error (x : PyError) (hx : x.isOSError = true)

/-- The reader's end of a connection: the segments the kernel hands over. -/
structure Socket where
  segments : List { bytes : List UInt8 // bytes ≠ [] }
  ending : Ending

namespace Socket

def bytes (s : Socket) : List UInt8 := s.segments.flatMap (·.val)

/-- `recv(n)` takes from the first segment, as much of it as was asked for. -/
def recv (s : Socket) (n : ℕ) : Except PyError (List UInt8) × Socket :=
  match s.segments with
  | [] =>
    match s.ending with
    | .eof => (.ok [], s)
    | .error x _ => (.error x, s)
  | segment :: rest =>
    if h : n < segment.val.length then
      (.ok (segment.val.take n),
        { s with segments := ⟨segment.val.drop n, by simpa using h⟩ :: rest })
    else (.ok segment.val, { s with segments := rest })

theorem recv_nil {s : Socket} (h : s.segments = []) (n : ℕ) :
    (s.recv n).1 = .ok [] ∨ ∃ x, (s.recv n).1 = .error x ∧ x.isOSError = true := by
  obtain ⟨segments, ending⟩ := s
  obtain rfl : segments = [] := h
  cases ending with
  | eof => exact .inl rfl
  | error x hx => exact .inr ⟨x, rfl, hx⟩

theorem bytes_eq_nil {s : Socket} : s.bytes = [] ↔ s.segments = [] := by
  constructor
  · intro h
    match hs : s.segments with
    | [] => rfl
    | segment :: rest =>
      rw [bytes, hs, List.flatMap_cons] at h
      exact absurd (List.append_eq_nil_iff.mp h).1 segment.property
  · intro h
    rw [bytes, h]
    rfl

theorem recv_chunk {s : Socket} (h : s.bytes ≠ []) {n : ℕ} (hn : 0 < n) :
    ∃ chunk s', s.recv n = (.ok chunk, s') ∧ chunk ≠ [] ∧ chunk.length ≤ n ∧
      s.bytes = chunk ++ s'.bytes := by
  obtain ⟨segments, ending⟩ := s
  match segments with
  | [] => exact absurd rfl h
  | segment :: rest =>
    by_cases hlen : n < segment.val.length
    · refine ⟨_, _, dif_pos hlen, ?_, ?_, ?_⟩
      · simpa [hn.ne'] using segment.property
      · simp
      · simp only [bytes, List.flatMap_cons]
        rw [← List.append_assoc, List.take_append_drop]
    · exact ⟨_, _, dif_neg hlen, segment.property, not_lt.mp hlen, rfl⟩

end Socket

/-- `_recv_exact`, with what has been collected in `buf`. -/
def recvExact (n : ℕ) (buf : List UInt8) (s : Socket) : Except PyError (List UInt8) × Socket :=
  if buf.length < n then
    match s.recv (n - buf.length) with
    | (.error x, s') => (.error x, s')
    | (.ok [], s') => (.error (.connection "socket EOF"), s')
    | (.ok (b :: bs), s') => recvExact n (buf ++ b :: bs) s'
  else (.ok buf, s)
termination_by n - buf.length
decreasing_by simp; omega

/-- What `_recv_exact` gives when the connection carries enough bytes. -/
theorem recvExact_enough (n : ℕ) (buf : List UInt8) (s : Socket) (hbuf : buf.length ≤ n)
    (h : n ≤ buf.length + s.bytes.length) :
    ∃ s', recvExact n buf s = (.ok (buf ++ s.bytes.take (n - buf.length)), s') ∧
      s'.bytes = s.bytes.drop (n - buf.length) := by
  induction hk : n - buf.length using Nat.strong_induction_on generalizing buf s with
  | h k ih =>
    rw [recvExact]
    by_cases hlt : buf.length < n
    · have hne : s.bytes ≠ [] := by
        intro hnil
        rw [hnil, List.length_nil] at h
        omega
      obtain ⟨chunk, s', hrecv, hchunk, hle, hbytes⟩ := Socket.recv_chunk hne (n := n - buf.length)
        (by omega)
      obtain ⟨b, bs, rfl⟩ := List.exists_cons_of_ne_nil hchunk
      rw [hbytes, List.length_append] at h
      have hlen : (buf ++ b :: bs).length = buf.length + (b :: bs).length := List.length_append
      have hpos : 0 < (b :: bs).length := List.length_pos_of_ne_nil hchunk
      obtain ⟨s'', hrest, hdrop⟩ := ih (n - (buf ++ b :: bs).length) (by omega)
        (buf ++ b :: bs) s' (by omega) (by omega) rfl
      have hneed : k = (b :: bs).length + (n - (buf ++ b :: bs).length) := by omega
      refine ⟨s'', ?_, ?_⟩
      · rw [if_pos hlt, hrecv]
        simp only
        rw [hrest, hbytes, hneed, List.take_length_add_append, List.append_assoc]
      · rw [hdrop, hbytes, hneed, List.drop_length_add_append]
    · rw [if_neg hlt, ← hk, show n - buf.length = 0 by omega]
      exact ⟨s, by simp, by simp⟩

/-- What it gives when the connection ends before. -/
theorem recvExact_short (n : ℕ) (buf : List UInt8) (s : Socket)
    (h : buf.length + s.bytes.length < n) :
    ∃ x s', recvExact n buf s = (.error x, s') ∧ x.isOSError = true := by
  induction hk : n - buf.length using Nat.strong_induction_on generalizing buf s with
  | h k ih =>
    rw [recvExact, if_pos (by omega)]
    by_cases hnil : s.bytes = []
    · rcases hrecv : s.recv (n - buf.length) with ⟨answer, s'⟩
      have hend := Socket.recv_nil (Socket.bytes_eq_nil.mp hnil) (n - buf.length)
      rw [hrecv] at hend
      obtain rfl | ⟨x, rfl, hx⟩ := hend
      · exact ⟨_, _, rfl, rfl⟩
      · exact ⟨x, s', rfl, hx⟩
    · obtain ⟨chunk, s', hrecv, hchunk, hle, hbytes⟩ := Socket.recv_chunk hnil (n := n - buf.length)
        (by omega)
      obtain ⟨b, bs, rfl⟩ := List.exists_cons_of_ne_nil hchunk
      rw [hbytes, List.length_append] at h
      have hlen : (buf ++ b :: bs).length = buf.length + (b :: bs).length := List.length_append
      have hpos : 0 < (b :: bs).length := List.length_pos_of_ne_nil hchunk
      rw [hrecv]
      exact ih (n - (buf ++ b :: bs).length) (by omega) (buf ++ b :: bs) s' (by omega) rfl

theorem recvExact_bytes {n : ℕ} {s s' : Socket} {raw : List UInt8}
    (h : recvExact n [] s = (.ok raw, s')) : s'.bytes.length + n = s.bytes.length := by
  by_cases hlen : n ≤ s.bytes.length
  · obtain ⟨s'', hok, hdrop⟩ := recvExact_enough n [] s (Nat.zero_le n) (by simpa)
    obtain ⟨-, rfl⟩ := Prod.mk.inj (hok.symm.trans h)
    rw [hdrop, List.length_drop, List.length_nil]
    omega
  · obtain ⟨x, s'', herr, -⟩ := recvExact_short n [] s (by simpa using hlen)
    exact absurd (Prod.mk.inj (herr.symm.trans h)).1 (by simp)

/-- The inner loop of `read_poses`: the messages yielded on one connection, and
the exception that leaves the loop. -/
def readConnection (s : Socket) : List PoseMessage × PyError :=
  match _h : recvExact poseStructSize [] s with
  | (.error x, _) => ([], x)
  | (.ok raw, s') =>
    match PoseMessage.fromBytes raw with
    | .error x => ([], x)
    | .ok m =>
      let rest := readConnection s'
      (m :: rest.1, rest.2)
termination_by s.bytes.length
decreasing_by
  have := recvExact_bytes _h
  have := poseStructSize_eq
  omega

/-- One round of the outer loop: `_connect` raises, or there is a connection. -/
inductive Attempt
  | refused (x : PyError) (hx : x.isOSError = true)
  | connected (s : Socket)

/-- `read_poses`: what is yielded in each round, and the exception that ends the
generator, if one does. -/
def readPoses : List Attempt → List (List PoseMessage) × Option PyError
  | [] => ([], none)
  | .refused _ _ :: attempts =>
    let rest := readPoses attempts
    ([] :: rest.1, rest.2)
  | .connected s :: attempts =>
    let round := readConnection s
    if round.2.isOSError then
      let rest := readPoses attempts
      (round.1 :: rest.1, rest.2)
    else ([round.1], some round.2)

theorem imageOf_length (messages : List VslamPoseMsg) :
    (imageOf messages).length = 118 * messages.length := by
  induction messages with
  | nil => rfl
  | cons msg messages ih =>
    have := msg.bytes_length
    simp only [imageOf, List.flatMap_cons, List.length_append, List.length_cons] at ih ⊢
    omega

theorem prefix_imageOf_cons {bytes : List UInt8} {msg : VslamPoseMsg} {rest : List VslamPoseMsg}
    (h : bytes <+: imageOf (msg :: rest)) (hfull : 118 ≤ bytes.length) :
    bytes.take 118 = msg.bytes ∧ bytes.drop 118 <+: imageOf rest := by
  obtain ⟨t, ht⟩ := h
  rw [← List.take_append_drop 118 bytes, List.append_assoc] at ht
  have hlen : (bytes.take 118).length = msg.bytes.length := by
    rw [List.length_take, msg.bytes_length]
    omega
  obtain ⟨hfirst, hrest⟩ := List.append_inj ht hlen
  exact ⟨hfirst, t, hrest⟩

/-- A connection yields the messages whose bytes arrived whole. -/
theorem readConnection_eq (s : Socket) (messages : List VslamPoseMsg)
    (h : s.bytes <+: imageOf messages) :
    ∃ x, readConnection s =
      ((messages.take (s.bytes.length / 118)).map VslamPoseMsg.stored, x) ∧
        x.isOSError = true := by
  induction hk : s.bytes.length using Nat.strong_induction_on generalizing s messages with
  | h k ih =>
    have hlen := h.length_le
    rw [imageOf_length] at hlen
    by_cases hfull : 118 ≤ s.bytes.length
    · obtain ⟨msg, rest, rfl⟩ : ∃ msg rest, messages = msg :: rest :=
        List.exists_cons_of_length_pos (by omega)
      obtain ⟨hfirst, hrest⟩ := prefix_imageOf_cons h hfull
      obtain ⟨s', hrecv, hdrop⟩ := recvExact_enough poseStructSize [] s (Nat.zero_le _)
        (by rw [poseStructSize_eq]; simpa using hfull)
      simp only [poseStructSize_eq, List.length_nil, Nat.sub_zero, List.nil_append, hfirst]
        at hrecv hdrop
      obtain ⟨x, hread, hx⟩ := ih s'.bytes.length (by rw [hdrop, List.length_drop]; omega)
        s' rest (hdrop ▸ hrest) rfl
      refine ⟨x, ?_, hx⟩
      have hcount : k / 118 = s'.bytes.length / 118 + 1 := by
        rw [hdrop, List.length_drop]
        omega
      rw [readConnection]
      split
      · rename_i hrecv'
        rw [poseStructSize_eq, hrecv] at hrecv'
        simp at hrecv'
      · rename_i raw s'' hrecv'
        rw [poseStructSize_eq, hrecv] at hrecv'
        obtain ⟨hraw, rfl⟩ := Prod.mk.inj hrecv'
        obtain rfl := Except.ok.inj hraw
        rw [PoseMessage.fromBytes_bytes]
        simp only [hread, hcount, List.take_succ_cons, List.map_cons]
    · obtain ⟨x, s', hrecv, hx⟩ := recvExact_short poseStructSize [] s
        (by rw [poseStructSize_eq]; simpa using hfull)
      refine ⟨x, ?_, hx⟩
      rw [readConnection]
      split
      · rename_i x' s'' hrecv'
        obtain ⟨herr, -⟩ := Prod.mk.inj (hrecv.symm.trans hrecv')
        obtain rfl := Except.error.inj herr
        rw [← hk, Nat.div_eq_of_lt (not_le.mp hfull)]
        rfl
      · rename_i hrecv'
        exact absurd (Prod.mk.inj (hrecv.symm.trans hrecv')).1 (by simp)

/-- The reader's rounds against the node's connections, both in their order: what
a round is handed is the beginning of what the kernel accepted on its connection,
and a connection the node has not accepted carries nothing. Along with them go the
messages of each round whose bytes were all delivered. -/
inductive Delivers : List Connection → List Attempt → List (List VslamPoseMsg) → Prop
  | nil {connections} : Delivers connections [] []
  | refused {connections attempts complete} (x : PyError) (hx : x.isOSError = true) :
    Delivers connections attempts complete →
    Delivers connections (.refused x hx :: attempts) ([] :: complete)
  | pending {connections attempts complete s} :
    s.bytes = [] → Delivers connections attempts complete →
    Delivers connections (.connected s :: attempts) ([] :: complete)
  | accepted {c connections attempts complete s} :
    s.bytes <+: c.accepted → Delivers connections attempts complete →
    Delivers (c :: connections) (.connected s :: attempts)
      (c.messages.take (s.bytes.length / 118) :: complete)

theorem readPoses_connected {s : Socket} {messages : List VslamPoseMsg}
    (h : s.bytes <+: imageOf messages) (attempts : List Attempt) :
    readPoses (.connected s :: attempts) =
      ((messages.take (s.bytes.length / 118)).map VslamPoseMsg.stored :: (readPoses attempts).1,
        (readPoses attempts).2) := by
  obtain ⟨x, hread, hx⟩ := readConnection_eq s messages h
  simp only [readPoses, hread, hx, if_true]

theorem readPoses_of_delivers {connections : List Connection} {attempts : List Attempt}
    {complete : List (List VslamPoseMsg)} (h : Delivers connections attempts complete)
    (hstart : ∀ c ∈ connections, c.accepted <+: imageOf c.messages) :
    readPoses attempts = (complete.map (·.map VslamPoseMsg.stored), none) := by
  induction h with
  | nil => rfl
  | refused x hx _ ih =>
    simp only [readPoses, ih hstart, List.map_cons, List.map_nil]
  | @pending connections attempts complete s hs _ ih =>
    have hnone : s.bytes <+: imageOf [] := by rw [hs]; exact List.nil_prefix
    rw [readPoses_connected hnone, ih hstart]
    simp
  | @accepted c connections attempts complete s hs _ ih =>
    have hstream := hs.trans (hstart c List.mem_cons_self)
    rw [readPoses_connected hstream, ih fun c' hc' => hstart c' (List.mem_cons_of_mem c hc')]
    rfl

/-- Whatever the node writes and however its bytes are cut, the reader yields round by
round the messages that were delivered whole. -/
theorem readPoses_framing (steps : List NodeStep) {attempts : List Attempt}
    {complete : List (List VslamPoseMsg)}
    (h : Delivers (runNode steps).connections attempts complete) :
    readPoses attempts = (complete.map (·.map VslamPoseMsg.stored), none) :=
  readPoses_of_delivers h (aligned_runNode steps).connections

/-- The pose of a node that has just started. -/
def originPose : VslamPoseMsg := ⟨0, 0, 0, 0, 0, 0, 0, Vector.replicate 21 0, 0, 0⟩

/-- Two poses of which the second is cut off after two bytes, handed over in two pieces. -/
def cutSocket : Socket :=
  ⟨[⟨List.replicate 50 0, by decide⟩, ⟨List.replicate 70 0, by decide⟩], .eof⟩

theorem readPoses_framing_cut :
    readPoses [.connected cutSocket] = ([[originPose.stored]], none) := by
  have hbytes : cutSocket.bytes <+: originPose.bytes ++ originPose.bytes.take 2 := by decide
  have hdelivers : Delivers
      (runNode [.accept, .send originPose (some 118), .send originPose (some 2)]).connections
      [.connected cutSocket] [[originPose]] := by
    exact .accepted (c := ⟨[originPose, originPose], _⟩) hbytes .nil
  exact readPoses_framing _ hdelivers

end MowerRover.Vslam
