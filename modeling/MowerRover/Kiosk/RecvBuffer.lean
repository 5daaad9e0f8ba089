import MowerRover.Kiosk.SocketClient
import MowerRover.Memory

/-!
# The receive buffer of the socket client

The client with its buffer as memory and its lengths as machine words. Every
access to the buffer, every change of the length and every round of the loop is
recorded; no access is checked by the model itself.
-/

namespace MowerRover.Kiosk

open Numeric

/-- What happens at the buffer. -/
inductive BufferEvent
  /-- the length at the call, and the space that is passed -/
  | recv (bufLen space : UInt64)
  | memcpy (src length : ℕ)
  | parse (start length : ℕ)
  | memmove (dst src length : ℕ)
  | setLength (bufLen : UInt64)
  /-- a round of the loop that does not leave it -/
  | round (before after : UInt64)
  deriving DecidableEq, Repr

/-- `s_client`, with memory from `buf` on. -/
structure RawClient where
  fdOpen : Bool
  connected : Bool
  buf : Memory
  bufLen : UInt64
  lastConnectAttemptMs : UInt64
  reconnectIntervalMs : UInt32

/-- What the operations give, with what they did at the buffer. -/
abbrev Logged (α : Type) : Type := α × List BufferEvent

/-- Where a round of the loop goes. -/
inductive Round (δ : Type)
  | leave (c : RawClient) (result : Option δ)
  | again (c : RawClient)

namespace RawClient

/-- The static storage before the first call. -/
def start : RawClient := ⟨false, false, fun _ => 0, 0, 0, reconnectMinMs⟩

/-- `socket_client_init`; the memory of the client is cleared. -/
def init (c : RawClient) : Logged RawClient :=
  (⟨false, false, fun i => if i < recvBufSize then 0 else c.buf i, 0, 0, reconnectMinMs⟩,
    [.setLength 0])

/-- `handle_disconnect`, and the same in `socket_client_close`. -/
def handleDisconnect (c : RawClient) : Logged RawClient :=
  ({ c with fdOpen := false, connected := false, bufLen := 0 }, [.setLength 0])

def tryConnect (a : Attempt) (c : RawClient) : Logged RawClient :=
  if a.monoMs - c.lastConnectAttemptMs < c.reconnectIntervalMs.toUInt64 then (c, [])
  else
    let c := { c with lastConnectAttemptMs := a.monoMs, fdOpen := false }
    if !a.socket || !a.setNonblocking then (c, [])
    else if a.connect then
      ({ c with fdOpen := true, connected := true, reconnectIntervalMs := reconnectMinMs,
                bufLen := 0 }, [.setLength 0])
    else
      let doubled := c.reconnectIntervalMs * 2
      let interval := if reconnectMaxMs < doubled then reconnectMaxMs else doubled
      ({ c with reconnectIntervalMs := interval }, [])

/-- What `recv` writes behind the bytes that are there. -/
def store (bytes : List UInt8) (c : RawClient) : RawClient :=
  { c with buf := c.buf.write c.bufLen.toNat bytes
           bufLen := c.bufLen + UInt64.ofNat bytes.length }

section Loop

variable {δ : Type} (parse : List UInt8 → Option δ)

/-- The body of the loop over the frames in the buffer. -/
def round (c : RawClient) : Logged (Round δ) :=
  let msgLen := UInt32.ofNat (leValue (c.buf.read 0 4))
  if UInt32.ofNat (recvBufSize - 4) < msgLen then
    let (c, log) := c.handleDisconnect
    (.leave c none, .memcpy 0 4 :: log)
  -- `4 + msg_len` is a sum of 32 bits
  else if c.bufLen < (4 + msgLen).toUInt64 then (.leave c none, [.memcpy 0 4])
  else
    let parsed := parse (c.buf.read 4 msgLen.toNat)
    let consumed := (4 + msgLen).toUInt64
    let rest := c.bufLen - consumed
    let c := { c with buf := c.buf.move 0 consumed.toNat rest.toNat, bufLen := rest }
    let log := [.memcpy 0 4, .parse 4 msgLen.toNat, .memmove 0 consumed.toNat rest.toNat,
      .setLength rest]
    match parsed with
    | some data => (.leave c (some data), log)
    | none => (.again c, log)

/-- The loop with so many rounds to go; `none` when they do not suffice. -/
def loop : ℕ → RawClient → Logged (Option (RawClient × Option δ))
  | rounds, c =>
    if c.bufLen < 4 then (some (c, none), [])
    else
      match rounds with
      | 0 => (none, [])
      | rounds + 1 =>
        match c.round parse with
        | (.leave c result, log) => (some (c, result), log)
        | (.again c', log) =>
          let (result, rest) := loop rounds c'
          (result, log ++ .round c.bufLen c'.bufLen :: rest)

/-- `socket_client_poll`. -/
def poll (rounds : ℕ) (a : Attempt) (recv : (space : ℕ) → Recv space) (c : RawClient) :
    Logged (Option (RawClient × Option δ)) :=
  if !c.connected then
    let (c, log) := c.tryConnect a
    (some (c, none), log)
  else
    let space := UInt64.ofNat recvBufSize - c.bufLen
    let called := BufferEvent.recv c.bufLen space
    match recv space.toNat with
    | .data bytes _ _ =>
      let c := c.store bytes
      let (result, log) := c.loop parse rounds
      (result, called :: .setLength c.bufLen :: log)
    | .again =>
      let (result, log) := c.loop parse rounds
      (result, called :: log)
    | .closed | .error =>
      let (c, log) := c.handleDisconnect
      (some (c, none), called :: log)

end Loop

end RawClient

/-- The operations of the client; what a poll meets is up to its surroundings. -/
inductive ClientOp
  | init
  | close
  | poll (a : Attempt) (recv : (space : ℕ) → Recv space)

section Run

variable {δ : Type} (parse : List UInt8 → Option δ) (rounds : ℕ)

def ClientOp.apply (c : RawClient) : ClientOp → Logged (Option RawClient)
  | .init => let (c, log) := c.init; (some c, log)
  | .close => let (c, log) := c.handleDisconnect; (some c, log)
  | .poll a recv => let (result, log) := c.poll parse rounds a recv; (result.map Prod.fst, log)

/-- A sequence of operations; `none` when a loop has not come to its end. -/
def runOps : List ClientOp → RawClient → Logged (Option RawClient)
  | [], c => (some c, [])
  | op :: ops, c =>
    match op.apply parse rounds c with
    | (some c, log) =>
      let (result, rest) := runOps ops c
      (result, log ++ rest)
    | (none, log) => (none, log)

end Run

/-- `recv` has space and is given no more than there is, and everything else stays in the buffer; a
round takes four bytes at least. -/
def BufferEvent.Safe : BufferEvent → Prop
  | .recv bufLen space => bufLen.toNat < recvBufSize ∧ bufLen.toNat + space.toNat = recvBufSize
  | .memcpy src length => src + length ≤ recvBufSize
  | .parse start length => start + length ≤ recvBufSize
  | .memmove dst src length => dst + length ≤ recvBufSize ∧ src + length ≤ recvBufSize
  | .setLength bufLen => bufLen.toNat ≤ recvBufSize
  | .round before after => after.toNat + 4 ≤ before.toNat

namespace RawClient

/-- There is space for the next `recv`. -/
def HasRoom (c : RawClient) : Prop := c.bufLen.toNat < recvBufSize

variable {δ : Type} {parse : List UInt8 → Option δ} {rounds : ℕ} {c c' : RawClient}
  {result : Option δ} {log : List BufferEvent}

theorem consumed_toNat {msgLen : UInt32} (h : ¬ UInt32.ofNat (recvBufSize - 4) < msgLen) :
    (4 + msgLen).toUInt64.toNat = 4 + msgLen.toNat ∧ 4 + msgLen.toNat ≤ recvBufSize := by
  have hlimit : (UInt32.ofNat (recvBufSize - 4)).toNat = 8188 := rfl
  rw [UInt32.lt_iff_toNat_lt, hlimit, not_lt] at h
  rw [UInt32.toNat_toUInt64, UInt32.toNat_add]
  unfold recvBufSize
  have hfour : (4 : UInt32).toNat = 4 := rfl
  omega

theorem rest_toNat {msgLen : UInt32} (hbig : ¬ UInt32.ofNat (recvBufSize - 4) < msgLen)
    (hwait : ¬ c.bufLen < (4 + msgLen).toUInt64) :
    (c.bufLen - (4 + msgLen).toUInt64).toNat = c.bufLen.toNat - (4 + msgLen.toNat) := by
  rw [UInt64.toNat_sub_of_le _ _ (UInt64.not_lt.mp hwait), (consumed_toNat hbig).1]

variable (parse) in
/-- One round with a header in the buffer. -/
theorem round_spec (hfull : c.bufLen.toNat ≤ recvBufSize) :
    (∀ e ∈ (c.round parse).2, e.Safe) ∧
      match (c.round parse).1 with
      | .leave c' _ => c'.HasRoom
      | .again c' => c'.bufLen.toNat + 4 ≤ c.bufLen.toNat := by
  unfold round
  dsimp only
  split_ifs with hbig hwait
  · simp [handleDisconnect, BufferEvent.Safe, HasRoom, recvBufSize]
  · obtain ⟨hconsumed, hlimit⟩ := consumed_toNat hbig
    rw [UInt64.lt_iff_toNat_lt, hconsumed] at hwait
    refine ⟨?_, lt_of_lt_of_le hwait hlimit⟩
    simp [BufferEvent.Safe, recvBufSize]
  · obtain ⟨hconsumed, hlimit⟩ := consumed_toNat hbig
    have hrest := rest_toNat hbig hwait
    rw [UInt64.lt_iff_toNat_lt, hconsumed, not_lt] at hwait
    generalize UInt32.ofNat (leValue (c.buf.read 0 4)) = msgLen at *
    have hsafe : ∀ e ∈ [BufferEvent.memcpy 0 4, .parse 4 msgLen.toNat,
        .memmove 0 (4 + msgLen).toUInt64.toNat (c.bufLen - (4 + msgLen).toUInt64).toNat,
        .setLength (c.bufLen - (4 + msgLen).toUInt64)], e.Safe := by
      unfold recvBufSize at hfull hlimit
      simp only [List.forall_mem_cons, BufferEvent.Safe, hconsumed, hrest, recvBufSize]
      refine ⟨by omega, by omega, by omega, by omega, by simp⟩
    cases parse (c.buf.read 4 msgLen.toNat) with
    | some data =>
      refine ⟨hsafe, ?_⟩
      unfold HasRoom
      dsimp only
      omega
    | none =>
      refine ⟨hsafe, ?_⟩
      dsimp only
      omega

theorem loop_of_lt (h : c.bufLen < 4) : c.loop parse rounds = (some (c, none), []) := by
  unfold loop
  rw [if_pos h]

theorem loop_zero (h : ¬ c.bufLen < 4) : c.loop parse 0 = (none, []) := by
  unfold loop
  rw [if_neg h]

theorem loop_leave (h : ¬ c.bufLen < 4) (hround : c.round parse = (.leave c' result, log)) :
    c.loop parse (rounds + 1) = (some (c', result), log) := by
  rw [loop, if_neg h, hround]

theorem loop_again (h : ¬ c.bufLen < 4) (hround : c.round parse = (.again c', log)) :
    c.loop parse (rounds + 1) = ((c'.loop parse rounds).1,
      log ++ .round c.bufLen c'.bufLen :: (c'.loop parse rounds).2) := by
  rw [loop, if_neg h, hround]

/-- A loop that has ended does not ask for more rounds. -/
theorem loop_add {r : RawClient × Option δ} (h : c.loop parse rounds = (some r, log)) (extra : ℕ) :
    c.loop parse (rounds + extra) = (some r, log) := by
  induction rounds generalizing c log with
  | zero =>
    by_cases hlt : c.bufLen < 4
    · rwa [loop_of_lt hlt] at h ⊢
    · rw [loop_zero hlt] at h
      cases h
  | succ rounds ih =>
    by_cases hlt : c.bufLen < 4
    · rwa [loop_of_lt hlt] at h ⊢
    rw [Nat.add_right_comm]
    cases hround : c.round parse with
    | mk where' log' =>
      cases where' with
      | leave c' result => rwa [loop_leave hlt hround] at h ⊢
      | again c' =>
        rw [loop_again hlt hround] at h ⊢
        obtain ⟨hr, hlog⟩ := Prod.mk.inj h
        rw [ih (Prod.ext hr rfl)]
        exact Prod.ext rfl hlog

variable (parse) in
/-- A round takes four bytes at least, so that a fourth of the bytes as rounds suffice. -/
theorem loop_spec (hfull : c.bufLen.toNat ≤ recvBufSize) (hrounds : c.bufLen.toNat ≤ 4 * rounds) :
    ∃ r log, c.loop parse rounds = (some r, log) ∧ (∀ e ∈ log, e.Safe) ∧ r.1.HasRoom := by
  induction rounds generalizing c with
  | zero =>
    have hlt : c.bufLen < 4 := by
      rw [UInt64.lt_iff_toNat_lt]
      exact lt_of_le_of_lt hrounds (by decide)
    refine ⟨_, _, loop_of_lt hlt, by simp, ?_⟩
    exact lt_of_le_of_lt hrounds (by decide)
  | succ rounds ih =>
    by_cases hlt : c.bufLen < 4
    · refine ⟨_, _, loop_of_lt hlt, by simp, ?_⟩
      rw [UInt64.lt_iff_toNat_lt] at hlt
      exact lt_trans hlt (by decide)
    obtain ⟨hsafe, hround⟩ := round_spec parse hfull
    cases hcase : c.round parse with
    | mk where' log =>
      rw [hcase] at hsafe hround
      cases where' with
      | leave c' result => exact ⟨_, _, loop_leave hlt hcase, hsafe, hround⟩
      | again c' =>
        have hround : c'.bufLen.toNat + 4 ≤ c.bufLen.toNat := hround
        obtain ⟨r, rest, hloop, hrest, hroom⟩ := ih (c := c') (by omega) (by omega)
        refine ⟨r, _, by rw [loop_again hlt hcase, hloop], ?_, hroom⟩
        exact List.forall_mem_append.mpr ⟨hsafe, List.forall_mem_cons.mpr ⟨hround, hrest⟩⟩

theorem handleDisconnect_spec (c : RawClient) :
    (∀ e ∈ c.handleDisconnect.2, e.Safe) ∧ c.handleDisconnect.1.HasRoom := by
  simp [handleDisconnect, BufferEvent.Safe, HasRoom, recvBufSize]

theorem init_spec (c : RawClient) : (∀ e ∈ c.init.2, e.Safe) ∧ c.init.1.HasRoom := by
  simp [init, BufferEvent.Safe, HasRoom, recvBufSize]

theorem tryConnect_spec (hroom : c.HasRoom) (a : Attempt) :
    (∀ e ∈ (c.tryConnect a).2, e.Safe) ∧ (c.tryConnect a).1.HasRoom := by
  unfold tryConnect
  dsimp only
  split_ifs
  · exact ⟨by simp, hroom⟩
  · exact ⟨by simp, hroom⟩
  · simp [BufferEvent.Safe, HasRoom, recvBufSize]
  · exact ⟨by simp, hroom⟩
  · exact ⟨by simp, hroom⟩

/-- The space that is passed to `recv` is the rest of the buffer. -/
theorem space_toNat (hroom : c.HasRoom) :
    (UInt64.ofNat recvBufSize - c.bufLen).toNat = recvBufSize - c.bufLen.toNat := by
  have hsize : (UInt64.ofNat recvBufSize).toNat = recvBufSize := rfl
  rw [UInt64.toNat_sub_of_le, hsize]
  rw [UInt64.le_iff_toNat_le, hsize]
  exact hroom.le

theorem recv_safe (hroom : c.HasRoom) :
    (BufferEvent.recv c.bufLen (UInt64.ofNat recvBufSize - c.bufLen)).Safe := by
  refine ⟨hroom, ?_⟩
  rw [space_toNat hroom, Nat.add_sub_cancel' hroom.le]

theorem store_toNat (hroom : c.HasRoom) {bytes : List UInt8}
    (hfits : bytes.length ≤ (UInt64.ofNat recvBufSize - c.bufLen).toNat) :
    (c.store bytes).bufLen.toNat = c.bufLen.toNat + bytes.length ∧
      c.bufLen.toNat + bytes.length ≤ recvBufSize := by
  rw [space_toNat hroom] at hfits
  have hlt : c.bufLen.toNat < recvBufSize := hroom
  rw [store, UInt64.toNat_add, UInt64.toNat_ofNat']
  unfold recvBufSize at *
  omega

variable (parse) in
/-- A poll of a client with room. -/
theorem poll_spec (hroom : c.HasRoom) (hrounds : recvBufSize ≤ 4 * rounds) (a : Attempt)
    (recv : (space : ℕ) → Recv space) :
    ∃ r log, c.poll parse rounds a recv = (some r, log) ∧ (∀ e ∈ log, e.Safe) ∧ r.1.HasRoom := by
  unfold poll
  split_ifs with hconnected
  · obtain ⟨hsafe, hroom'⟩ := tryConnect_spec hroom a
    exact ⟨_, _, rfl, hsafe, hroom'⟩
  dsimp only
  cases recv (UInt64.ofNat recvBufSize - c.bufLen).toNat with
  | data bytes hne hfits =>
    obtain ⟨hlen, hfull⟩ := store_toNat hroom hfits
    rw [← hlen] at hfull
    obtain ⟨r, log, hloop, hsafe, hroom'⟩ :=
      loop_spec parse hfull (hfull.trans hrounds)
    dsimp only
    rw [hloop]
    refine ⟨r, _, rfl, ?_, hroom'⟩
    exact List.forall_mem_cons.mpr ⟨recv_safe hroom, List.forall_mem_cons.mpr ⟨hfull, hsafe⟩⟩
  | again =>
    obtain ⟨r, log, hloop, hsafe, hroom'⟩ :=
      loop_spec parse hroom.le (hroom.le.trans hrounds)
    dsimp only
    rw [hloop]
    exact ⟨r, _, rfl, List.forall_mem_cons.mpr ⟨recv_safe hroom, hsafe⟩, hroom'⟩
  | closed =>
    obtain ⟨hsafe, hroom'⟩ := handleDisconnect_spec c
    exact ⟨_, _, rfl, List.forall_mem_cons.mpr ⟨recv_safe hroom, hsafe⟩, hroom'⟩
  | error =>
    obtain ⟨hsafe, hroom'⟩ := handleDisconnect_spec c
    exact ⟨_, _, rfl, List.forall_mem_cons.mpr ⟨recv_safe hroom, hsafe⟩, hroom'⟩

theorem poll_add {a : Attempt} {recv : (space : ℕ) → Recv space} {r : RawClient × Option δ}
    (h : c.poll parse rounds a recv = (some r, log)) (extra : ℕ) :
    c.poll parse (rounds + extra) a recv = (some r, log) := by
  have hloop : ∀ (c' : RawClient) (before : List BufferEvent),
      ((c'.loop parse rounds).1, before ++ (c'.loop parse rounds).2) = (some r, log) →
        ((c'.loop parse (rounds + extra)).1, before ++ (c'.loop parse (rounds + extra)).2) =
          (some r, log) := by
    intro c' before hc'
    obtain ⟨hr, hlog⟩ := Prod.mk.inj hc'
    rw [loop_add (Prod.ext hr rfl) extra]
    exact Prod.ext rfl hlog
  unfold poll at h ⊢
  split_ifs at h ⊢ with hconnected
  · exact h
  dsimp only at h ⊢
  cases hrecv : recv (UInt64.ofNat recvBufSize - c.bufLen).toNat with
  | data bytes hne hfits =>
    rw [hrecv] at h
    exact hloop (c.store bytes) [_, _] h
  | again =>
    rw [hrecv] at h
    exact hloop c [_] h
  | closed | error =>
    rw [hrecv] at h
    exact h

end RawClient

section Runs

variable {δ : Type} {parse : List UInt8 → Option δ} {rounds : ℕ} {c c' : RawClient}
  {log : List BufferEvent}

variable (parse) in
theorem apply_spec (hroom : c.HasRoom) (hrounds : recvBufSize ≤ 4 * rounds) (op : ClientOp) :
    ∃ c' log, op.apply parse rounds c = (some c', log) ∧ (∀ e ∈ log, e.Safe) ∧ c'.HasRoom := by
  cases op with
  | init =>
    obtain ⟨hsafe, hroom'⟩ := c.init_spec
    exact ⟨_, _, rfl, hsafe, hroom'⟩
  | close =>
    obtain ⟨hsafe, hroom'⟩ := c.handleDisconnect_spec
    exact ⟨_, _, rfl, hsafe, hroom'⟩
  | poll a recv =>
    obtain ⟨r, log, hpoll, hsafe, hroom'⟩ := RawClient.poll_spec parse hroom hrounds a recv
    exact ⟨r.1, log, by rw [ClientOp.apply, hpoll]; rfl, hsafe, hroom'⟩

theorem apply_add {op : ClientOp} (h : op.apply parse rounds c = (some c', log)) (extra : ℕ) :
    op.apply parse (rounds + extra) c = (some c', log) := by
  cases op with
  | init | close => exact h
  | poll a recv =>
    rw [ClientOp.apply] at h ⊢
    cases hpoll : c.poll parse rounds a recv with
    | mk result log' =>
      rw [hpoll] at h
      cases result with
      | none => cases h
      | some r => rwa [RawClient.poll_add hpoll]

variable (parse) in
/-- Every event of a run is safe, and the run comes to its end in the same way however many rounds
more there are. -/
theorem runOps_spec (hroom : c.HasRoom) (hrounds : recvBufSize ≤ 4 * rounds) (ops : List ClientOp) :
    ∃ c' log, (∀ extra, runOps parse (rounds + extra) ops c = (some c', log)) ∧
      (∀ e ∈ log, e.Safe) ∧ c'.HasRoom := by
  induction ops generalizing c with
  | nil => exact ⟨c, [], fun _ => rfl, by simp, hroom⟩
  | cons op ops ih =>
    obtain ⟨c₁, log₁, hop, hsafe₁, hroom₁⟩ := apply_spec parse hroom hrounds op
    obtain ⟨c₂, log₂, hrest, hsafe₂, hroom₂⟩ := ih hroom₁
    have hsafe : ∀ e ∈ log₁ ++ log₂, e.Safe := List.forall_mem_append.mpr ⟨hsafe₁, hsafe₂⟩
    refine ⟨c₂, log₁ ++ log₂, fun extra => ?_, hsafe, hroom₂⟩
    rw [runOps, apply_add hop extra]
    dsimp only
    rw [hrest extra]

end Runs

namespace RawClient

variable {δ : Type} {parse : List UInt8 → Option δ} {rounds : ℕ} {c c' : RawClient}
  {result : Option δ} {log : List BufferEvent}

/-- The client with the bytes that are in the buffer. -/
def client (c : RawClient) : Client :=
  ⟨c.fdOpen, c.connected, c.buf.read 0 c.bufLen.toNat, c.lastConnectAttemptMs,
    c.reconnectIntervalMs⟩

theorem length_client_buf (c : RawClient) : c.client.buf.length = c.bufLen.toNat :=
  Memory.length_read ..

theorem client_handleDisconnect (c : RawClient) :
    c.handleDisconnect.1.client = c.client.handleDisconnect := rfl

theorem client_init (c : RawClient) : c.init.1.client = Client.init := rfl

theorem client_tryConnect (a : Attempt) (c : RawClient) :
    (c.tryConnect a).1.client = c.client.tryConnect a := by
  by_cases hbackoff : a.monoMs - c.lastConnectAttemptMs < c.reconnectIntervalMs.toUInt64
  · simp [tryConnect, Client.tryConnect, client, hbackoff]
  by_cases hsocket : (!a.socket || !a.setNonblocking) = true
  · simp only [tryConnect, Client.tryConnect, client, hbackoff, hsocket, if_true, if_false]
  by_cases hconnect : a.connect = true
  · simp only [tryConnect, Client.tryConnect, client, hbackoff, hsocket, hconnect, if_true,
      if_false]
    rfl
  · simp only [tryConnect, Client.tryConnect, client, hbackoff, hsocket, hconnect, if_false,
      Bool.false_eq_true]
    rfl

theorem client_store (hroom : c.HasRoom) {bytes : List UInt8}
    (hfits : bytes.length ≤ (UInt64.ofNat recvBufSize - c.bufLen).toNat) :
    (c.store bytes).client = { c.client with buf := c.client.buf ++ bytes } := by
  have hbuf : (c.store bytes).buf.read 0 (c.store bytes).bufLen.toNat =
      c.buf.read 0 c.bufLen.toNat ++ bytes := by
    rw [(store_toNat hroom hfits).1, Memory.read_add, Nat.zero_add]
    congr 1
    · exact Memory.read_write_before bytes (by omega)
    · exact Memory.read_write c.bufLen.toNat bytes
  unfold client
  rw [hbuf]
  rfl

theorem msgLen_toNat (c : RawClient) :
    (UInt32.ofNat (leValue (c.buf.read 0 4))).toNat = leValue (c.buf.read 0 4) := by
  have hlt := leValue_lt (c.buf.read 0 4)
  rw [Memory.length_read] at hlt
  rw [UInt32.toNat_ofNat']
  exact Nat.mod_eq_of_lt hlt

theorem message_read {msgLen : ℕ} (hwait : 4 + msgLen ≤ c.bufLen.toNat) :
    (c.client.buf.drop 4).take msgLen = c.buf.read 4 msgLen := by
  have hdrop : c.client.buf.drop 4 = c.buf.read 4 (c.bufLen.toNat - 4) :=
    Memory.drop_read (by omega)
  rw [hdrop, Memory.take_read (by omega)]

theorem rest_read {msgLen : UInt32} (hbig : ¬ UInt32.ofNat (recvBufSize - 4) < msgLen)
    (hwait : ¬ c.bufLen < (4 + msgLen).toUInt64) :
    c.client.buf.drop (4 + msgLen.toNat) =
      (c.buf.move 0 (4 + msgLen).toUInt64.toNat (c.bufLen - (4 + msgLen).toUInt64).toNat).read 0
        (c.bufLen - (4 + msgLen).toUInt64).toNat := by
  obtain ⟨hconsumed, -⟩ := consumed_toNat hbig
  rw [Memory.read_move, rest_toNat hbig hwait, hconsumed]
  rw [UInt64.lt_iff_toNat_lt, hconsumed, not_lt] at hwait
  have hdrop : c.client.buf.drop (4 + msgLen.toNat) =
      c.buf.read (0 + (4 + msgLen.toNat)) (c.bufLen.toNat - (4 + msgLen.toNat)) :=
    Memory.drop_read hwait
  rw [hdrop, Nat.zero_add]

variable (parse) in
/-- A round on memory is a step of the loop on the bytes. -/
theorem client_round (hheader : ¬ c.bufLen < 4) :
    match (c.round parse).1 with
    | .leave c' result => (c'.client, result) = c.client.settle (extract parse c.client.buf)
    | .again c' => extract parse c.client.buf = extract parse c'.client.buf ∧
        c'.client = { c.client with buf := c'.client.buf } := by
  rw [UInt64.lt_iff_toNat_lt, not_lt] at hheader
  have hheader : 4 ≤ c.bufLen.toNat := hheader
  have htake : c.client.buf.take 4 = c.buf.read 0 4 := Memory.take_read hheader
  have hmsgLen := c.msgLen_toNat
  unfold round
  rw [extract, length_client_buf, if_neg (not_lt.mpr hheader), htake]
  generalize UInt32.ofNat (leValue (c.buf.read 0 4)) = msgLen at *
  dsimp only
  rw [← hmsgLen]
  by_cases hbig : UInt32.ofNat (recvBufSize - 4) < msgLen
  · have hbig' : recvBufSize - 4 < msgLen.toNat := UInt32.lt_iff_toNat_lt.mp hbig
    rw [if_pos hbig, if_pos hbig']
    rfl
  obtain ⟨hconsumed, -⟩ := consumed_toNat hbig
  have hbig' : ¬ recvBufSize - 4 < msgLen.toNat := fun h => hbig (UInt32.lt_iff_toNat_lt.mpr h)
  rw [if_neg hbig, if_neg hbig']
  by_cases hwait : c.bufLen < (4 + msgLen).toUInt64
  · have hwait' := UInt64.lt_iff_toNat_lt.mp hwait
    rw [hconsumed] at hwait'
    rw [if_pos hwait, if_pos hwait']
    rfl
  have hwait' : ¬ c.bufLen.toNat < 4 + msgLen.toNat := by
    rwa [UInt64.lt_iff_toNat_lt, hconsumed] at hwait
  rw [if_neg hwait, if_neg hwait', message_read (not_lt.mp hwait')]
  have hrest := rest_read hbig hwait
  cases parse (c.buf.read 4 msgLen.toNat) with
  | some data =>
    dsimp only
    rw [hrest]
    rfl
  | none =>
    dsimp only
    rw [hrest]
    exact ⟨rfl, rfl⟩

theorem client_short (hlt : c.bufLen < 4) :
    (c.client, none) = c.client.settle (extract parse c.client.buf) := by
  have hshort : c.client.buf.length < 4 := by
    rw [length_client_buf]
    exact UInt64.lt_iff_toNat_lt.mp hlt
  rw [extract, if_pos hshort]
  rfl

/-- The loop on memory is the loop on the bytes. -/
theorem client_loop {r : RawClient × Option δ} (h : (c.loop parse rounds).1 = some r) :
    (r.1.client, r.2) = c.client.settle (extract parse c.client.buf) := by
  induction rounds generalizing c with
  | zero =>
    by_cases hlt : c.bufLen < 4
    · rw [loop_of_lt hlt] at h
      obtain rfl := Option.some.inj h
      exact client_short hlt
    · rw [loop_zero hlt] at h
      cases h
  | succ rounds ih =>
    by_cases hlt : c.bufLen < 4
    · rw [loop_of_lt hlt] at h
      obtain rfl := Option.some.inj h
      exact client_short hlt
    have hround := client_round parse hlt
    cases hcase : c.round parse with
    | mk where' log =>
      rw [hcase] at hround
      cases where' with
      | leave c' result =>
        rw [loop_leave hlt hcase] at h
        obtain rfl := Option.some.inj h
        exact hround
      | again c' =>
        obtain ⟨hextract, hclient⟩ := hround
        rw [loop_again hlt hcase] at h
        rw [ih h, hextract, hclient]
        cases extract parse c'.client.buf <;> rfl

theorem poll_connected (hconnected : c.connected = true) (a : Attempt)
    (recv : (space : ℕ) → Recv space) {space : ℕ}
    (hspace : (UInt64.ofNat recvBufSize - c.bufLen).toNat = space) :
    (c.poll parse rounds a recv).1 =
      match recv space with
      | .data bytes _ _ => ((c.store bytes).loop parse rounds).1
      | .again => (c.loop parse rounds).1
      | .closed | .error => some (c.handleDisconnect.1, none) := by
  subst hspace
  rw [poll, if_neg (by simp [hconnected])]
  dsimp only
  cases recv (UInt64.ofNat recvBufSize - c.bufLen).toNat <;> rfl

/-- A poll on memory is a poll on the bytes. -/
theorem client_poll (hroom : c.HasRoom) {a : Attempt} {recv : (space : ℕ) → Recv space}
    {r : RawClient × Option δ} (h : (c.poll parse rounds a recv).1 = some r) :
    (r.1.client, r.2) = c.client.poll parse a recv := by
  have hspace : (UInt64.ofNat recvBufSize - c.bufLen).toNat =
      recvBufSize - c.client.buf.length := by
    rw [length_client_buf, space_toNat hroom]
  have hsame : c.client.connected = c.connected := rfl
  rw [Client.poll, hsame]
  cases hconnected : c.connected with
  | false =>
    rw [poll, if_pos (by simp [hconnected])] at h
    have hr : ((c.tryConnect a).1, none) = r := Option.some.inj h
    rw [← hr, client_tryConnect]
    rfl
  | true =>
    rw [poll_connected hconnected a recv hspace] at h
    rw [if_neg (by simp)]
    unfold Client.received
    cases hrecv : recv (recvBufSize - c.client.buf.length) with
    | data bytes hne hfits =>
      rw [hrecv] at h
      have hloop := client_loop h
      rw [client_store hroom (hspace ▸ hfits)] at hloop
      rw [hloop]
      dsimp only
      cases extract parse (c.client.buf ++ bytes) <;> rfl
    | again =>
      rw [hrecv] at h
      exact client_loop h
    | closed | error =>
      rw [hrecv] at h
      obtain rfl := Option.some.inj h
      rfl

end RawClient

/-- Whatever the client is asked to do and whatever it receives, the buffer is used within its
bounds, `recv` always has space, and the loop over the frames ends. -/
theorem recvBuffer_safe {δ : Type} (parse : List UInt8 → Option δ) (ops : List ClientOp) :
    ∃ c log, (∀ extra, runOps parse (2048 + extra) ops .start = (some c, log)) ∧
      ∀ e ∈ log, e.Safe := by
  have hstart : RawClient.start.HasRoom := by
    unfold RawClient.HasRoom
    decide
  have hrounds : recvBufSize ≤ 4 * 2048 := by decide
  obtain ⟨c, log, hrun, hsafe, -⟩ := runOps_spec parse hstart hrounds ops
  exact ⟨c, log, hrun, hsafe⟩

end MowerRover.Kiosk
