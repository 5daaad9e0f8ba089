import MowerRover.Demands
import MowerRover.Zone.Encodable

/-!
# What the zone loader does with a malformed file

The loader checks the form of a document itself, and refuses what it does not
like with `ZoneConfigError`. Of reading and parsing it wraps `YAMLError` alone,
and it converts values with `float`, `int` and `str`, whose own errors it does
not catch. Which of the two happens is decided by the first demand that the file
does not meet, in the order in which the loader looks. One file that fails
otherwise than in a check hides all zones of its directory.
-/

namespace MowerRover.Zone

open Numeric

inductive Demand
  /-- a check of the loader, with its outcome -/
  | check (holds : Bool)
  | number (raw : Yaml)
  | whole (raw : Yaml)
  | text (raw : Yaml)
  /-- the file can be read and parsed, or is refused as malformed -/
  | readable (holds : Bool)

def Demand.met : Demand → Bool
  | .check holds | .readable holds => holds
  | .number raw => (pyFloat raw).isOk
  | .whole raw => (pyInt raw).isOk
  | .text raw => (strOf raw).isOk

def requiredFields : List String := ["schema", "zone_id", "name", "home", "rally_point", "boundary"]

variable {α : Type} {shapely : Shapely}

end MowerRover.Zone
