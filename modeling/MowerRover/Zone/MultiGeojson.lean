import MowerRover.Zone.Conversions
import MowerRover.Zone.Geojson

/-!
# The map of all zones

The features of several zones in one collection, and the command that exports
the zones of a directory. A feature names its zone by the id only, and nothing in
the directory keeps two zones from having the same one.
-/

namespace MowerRover.Zone

open GeoJson

/-- `dict[key]` -/
def item (key : String) : Yaml → Except PyError Yaml
  | .dict entries =>
    match Yaml.lookup key entries with
    | some v => pure v
    | none => throw (.other s!"'{key}'")
  | raw => throw (.type s!"'{raw.typeName}' object is not subscriptable")

/-- The items that a loop over the value goes through. -/
def items : Yaml → Except PyError (List Yaml)
  | .list xs => pure xs
  | raw => throw (.type s!"'{raw.typeName}' object is not iterable")

section Overview

variable {texts : ZoneTexts} {zone : ZoneConfig} {zones : List (ZoneTexts × ZoneConfig)}

end Overview

section Separate

variable {texts : ZoneTexts} {zone : ZoneConfig} {zones : List (ZoneTexts × ZoneConfig)}

end Separate

section Directory

variable {shapely : Shapely} {zonesDir : String}

end Directory

end MowerRover.Zone
