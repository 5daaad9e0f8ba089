import MowerRover.Kiosk.JsonParser
import MowerRover.Numeric.Framing

/-!
# The socket client of the display

A non-blocking client that is polled from a timer. Every poll receives once
into a buffer of fixed size and then takes frames off its front until one is
accepted, the rest is no whole frame, or the length of one is too large; the
last drops the connection.
-/

namespace MowerRover.Kiosk

open Numeric

def recvBufSize : ℕ := 8192

def reconnectMinMs : UInt32 := 500

def reconnectMaxMs : UInt32 := 10000

structure Client where
  fdOpen : Bool
  connected : Bool
  buf : List UInt8
  lastConnectAttemptMs : UInt64
  reconnectIntervalMs : UInt32
  deriving DecidableEq

/-- `socket_client_init`. -/
def Client.init : Client := ⟨false, false, [], 0, reconnectMinMs⟩

/-- What a connection attempt meets: the clock and whether each call succeeds. -/
structure Attempt where
  monoMs : UInt64
  socket : Bool
  setNonblocking : Bool
  connect : Bool

/-- The result of `recv` into so much space. -/
inductive Recv (space : ℕ)
  | data (bytes : List UInt8) (nonempty : bytes ≠ []) (fits : bytes.length ≤ space)
  | closed
  | again
  | error

namespace Client

/-- `socket_client_close`, and the effect of a disconnect. -/
def handleDisconnect (c : Client) : Client :=
  { c with fdOpen := false, connected := false, buf := [] }

def tryConnect (a : Attempt) (c : Client) : Client :=
  if a.monoMs - c.lastConnectAttemptMs < c.reconnectIntervalMs.toUInt64 then c
  else
    let c := { c with lastConnectAttemptMs := a.monoMs, fdOpen := false }
    if !a.socket || !a.setNonblocking then c
    else if a.connect then
      { c with fdOpen := true, connected := true, reconnectIntervalMs := reconnectMinMs, buf := [] }
    else
      let doubled := c.reconnectIntervalMs * 2
      { c with reconnectIntervalMs := if reconnectMaxMs < doubled then reconnectMaxMs else doubled }

end Client

/-- Where the loop over the frames in the buffer ends. -/
inductive Extracted (δ : Type)
  | oversized
  | waiting (buf : List UInt8)
  | accepted (data : δ) (buf : List UInt8)

variable {δ : Type} (parse : List UInt8 → Option δ)

def extract (buf : List UInt8) : Extracted δ :=
  if buf.length < 4 then .waiting buf
  else
    let msgLen := leValue (buf.take 4)
    if recvBufSize - 4 < msgLen then .oversized
    else if buf.length < 4 + msgLen then .waiting buf
    else
      match parse ((buf.drop 4).take msgLen) with
      | some data => .accepted data (buf.drop (4 + msgLen))
      | none => extract (buf.drop (4 + msgLen))
termination_by buf.length
decreasing_by
  rw [List.length_drop]
  omega

namespace Client

/-- What `recv` leaves in the buffer; nothing when the connection is gone. -/
def received (c : Client) : Recv (recvBufSize - c.buf.length) → Option (List UInt8)
  | .data bytes _ _ => some (c.buf ++ bytes)
  | .again => some c.buf
  | .closed | .error => none

/-- The client and the result after the loop. -/
def settle (c : Client) : Extracted δ → Client × Option δ
  | .oversized => (c.handleDisconnect, none)
  | .waiting buf => ({ c with buf := buf }, none)
  | .accepted data buf => ({ c with buf := buf }, some data)

/-- `socket_client_poll`. -/
def poll (a : Attempt) (recv : (space : ℕ) → Recv space) (c : Client) : Client × Option δ :=
  if !c.connected then (c.tryConnect a, none)
  else
    match c.received (recv (recvBufSize - c.buf.length)) with
    | none => (c.handleDisconnect, none)
    | some buf => c.settle (extract parse buf)

end Client

/-- The loop leaves room for the next `recv`. -/
theorem extract_room (buf : List UInt8) (hbuf : buf.length ≤ recvBufSize) :
    match extract parse buf with
    | .oversized => True
    | .waiting rest => rest.length < recvBufSize
    | .accepted _ rest => rest.length < recvBufSize := by
  induction buf using extract.induct parse with
  | case1 buf h =>
    rw [extract, if_pos h]
    exact Nat.lt_trans h (by decide)
  | case2 buf h msgLen hbig =>
    rw [extract, if_neg h, if_pos hbig]
    trivial
  | case3 buf h msgLen hbig hwait =>
    rw [extract, if_neg h, if_neg hbig, if_pos hwait]
    unfold recvBufSize at *
    dsimp only
    omega
  | case4 buf h msgLen hbig hwait data hparse =>
    rw [extract, if_neg h, if_neg hbig, if_neg hwait, hparse]
    simp only [List.length_drop]
    unfold recvBufSize at *
    omega
  | case5 buf h msgLen hbig hwait hparse ih =>
    rw [extract, if_neg h, if_neg hbig, if_neg hwait, hparse]
    apply ih
    rw [List.length_drop]
    omega

end MowerRover.Kiosk
