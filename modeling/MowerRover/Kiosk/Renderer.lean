import MowerRover.Effects.History
import MowerRover.Kiosk.SocketClient

/-!
# The renderer of the display

Two timers share the dashboard: one polls the socket and shows every frame, the
other looks for a lost connection and for old data. The tick they read counts
milliseconds in 32 bits, and the time of the last frame is kept in 64.
-/

namespace MowerRover.Kiosk

/-- The client, and the part of `main.c` and `dashboard.c` the two timers write. -/
structure Renderer where
  client : Client
  firstFrameReceived : Bool
  overlayVisible : Bool
  lastDataTimeMs : UInt64
  staleVisible : Bool

/-- After `create_dashboard` and `socket_client_init`. -/
def Renderer.initial : Renderer := ⟨.init, false, true, 0, false⟩

namespace Renderer

def dashboardSetConnecting (connecting : Bool) (r : Renderer) : Renderer :=
  { r with overlayVisible := connecting }

def dashboardSetStale (stale : Bool) (r : Renderer) : Renderer := { r with staleVisible := stale }

/-- The first frame hides the overlay. -/
def updateDashboard (r : Renderer) : Renderer :=
  if r.firstFrameReceived then r
  else ({ r with firstFrameReceived := true } : Renderer).dashboardSetConnecting false

def stalenessThresholdMs : UInt64 := 5000

end Renderer

/-- A timer that fires; for the socket, with what the poll meets. -/
inductive Callback
  | socketPoll (attempt : Attempt) (recv : (space : ℕ) → Recv space)
  | staleness

namespace Renderer

/-- What the poll of the callback returns. -/
def polled (r : Renderer) : Callback → Option KioskData
  | .socketPoll attempt recv => (r.client.poll parseKioskJson attempt recv).2
  | .staleness => none

def socketPollCb (tick : UInt32) (attempt : Attempt) (recv : (space : ℕ) → Recv space)
    (r : Renderer) : Renderer :=
  let r' := { r with client := (r.client.poll parseKioskJson attempt recv).1 }
  match r.polled (.socketPoll attempt recv) with
  | some _ => ({ r' with lastDataTimeMs := tick.toUInt64 } : Renderer).updateDashboard
  | none => r'

def stalenessCb (tick : UInt32) (r : Renderer) : Renderer :=
  if !r.client.connected then r.dashboardSetConnecting true
  else if r.lastDataTimeMs = 0 then r
  else r.dashboardSetStale (stalenessThresholdMs < tick.toUInt64 - r.lastDataTimeMs)

def callback (tick : UInt32) (cb : Callback) (r : Renderer) : Renderer :=
  match cb with
  | .socketPoll attempt recv => r.socketPollCb tick attempt recv
  | .staleness => r.stalenessCb tick

end Renderer

/-- A callback some milliseconds after the one before it. -/
structure Event where
  after : ℕ
  callback : Callback

/-- The renderer with the true time, and the true time of the last frame it got. -/
structure World where
  renderer : Renderer
  timeMs : ℕ
  lastFrameMs : Option ℕ

/-- The counter of a time. -/
def lvTickGet (timeMs : ℕ) : UInt32 := UInt32.ofNat timeMs

namespace World

def initial : World := ⟨.initial, 0, none⟩

def step (w : World) (e : Event) : World where
  renderer := w.renderer.callback (lvTickGet (w.timeMs + e.after)) e.callback
  timeMs := w.timeMs + e.after
  lastFrameMs := if (w.renderer.polled e.callback).isSome then some (w.timeMs + e.after)
    else w.lastFrameMs

abbrev run (es : List Event) : World := Effects.after step initial es

/-- The callback hands a frame to the dashboard. -/
def Delivers (w : World) (e : Event) : Prop := (w.renderer.polled e.callback).isSome

/-- The callback finds the connection lost. -/
def FindsLost (w : World) (e : Event) : Prop :=
  e.callback = .staleness ∧ w.renderer.client.connected = false

end World
end MowerRover.Kiosk
