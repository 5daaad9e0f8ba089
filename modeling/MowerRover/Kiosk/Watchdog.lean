import MowerRover.Kiosk.App
import MowerRover.Kiosk.Telemetry
import Mathlib.Data.List.Destutter

/-!
# The watchdog of the kiosk server

Three threads share the state: the reader handles messages, the poller writes
what it has read of the system, and the server takes a snapshot a round. A round
keeps systemd's watchdog quiet only while the heartbeat of the autopilot is fresh
or has never come, and logs when that changes. The threads interleave in any
order.
-/

namespace MowerRover.Kiosk

open Numeric Json

/-- What one of the threads does. -/
inductive KioskEvent
  | message (time : Double) (now : String) (msg : Msg)
  /-- one of the updates of a poll -/
  | health (now : String) (r : Readings) (index : ℕ)
  | round (now : Double)

variable (units : Option (List String)) (stalenessS : Double)

def KioskEvent.heartbeat? : KioskEvent → Option Double
  | .message time _ (.heartbeat ..) => some time
  | _ => none

/-- When the last heartbeat came; zero before the first. -/
def lastHeartbeat (last : Double) (events : List KioskEvent) : Double :=
  (events.filterMap KioskEvent.heartbeat?).getLast?.getD last

section Runs

end Runs

end MowerRover.Kiosk
