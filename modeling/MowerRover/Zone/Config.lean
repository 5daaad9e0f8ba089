import MowerRover.Yaml

/-!
# Zone configuration files

The loader of zone files: required fields, the form of the zone id, coordinates
given as pairs or mappings, and the numeric constraints of the coverage
section. Polygon validity is decided by Shapely, which is a parameter. The
texts of a zone other than its schema and its id (name, description, pattern,
SLAM mode, output names) are not used by what is modelled; they are converted,
which may fail, and not kept.
-/

namespace MowerRover.Zone

open Numeric

structure LatLon where
  lat : PyFloat
  lon : PyFloat
  deriving DecidableEq, Repr

structure ExclusionZone where
  bufferM : PyFloat
  polygon : List LatLon
  deriving DecidableEq, Repr

structure CoverageParams where
  cuttingWidthIn : PyFloat := .fin 54
  overlapPct : PyFloat := .fin 10
  angleDeg : PyFloat := .fin 0
  headlandPasses : ℤ := 2
  mowSpeedMps : PyFloat := .fin 2
  turnSpeedMps : PyFloat := .fin 1
  deriving DecidableEq, Repr

structure MissionCommands where
  fenceEnable : Bool := true
  resumeDistM : PyFloat := .fin (5 / 2)
  bladeEngage : Bool := true
  deriving DecidableEq, Repr

structure ZoneConfig where
  schema : String
  zoneId : String
  home : LatLon
  rallyPoint : LatLon
  boundary : List LatLon
  exclusionZones : List ExclusionZone := []
  coverage : CoverageParams := {}
  commands : MissionCommands := {}
  deriving DecidableEq, Repr

/-- What the loader asks of Shapely: `Polygon(coords).is_valid`, or the text of
the exception that constructing the polygon raises. -/
structure Shapely where
  isValid : List (PyFloat × PyFloat) → Except String Bool

def coerceLatlng (raw : Yaml) (name : String) : Except PyError LatLon :=
  match raw with
  | .list [lat, lon] => do pure ⟨← pyFloat lat, ← pyFloat lon⟩
  | .dict entries =>
    match Yaml.lookup "lat" entries, Yaml.lookup "lon" entries with
    | some lat, some lon => do pure ⟨← pyFloat lat, ← pyFloat lon⟩
    | _, _ => refuse
  | _ => refuse
where
  refuse : Except PyError LatLon :=
    throw (.zoneConfig (name ++ ": must be [lat, lon] or \x7blat: ..., lon: ...\x7d"))

def coerceRallyPoint : Yaml → Except PyError LatLon
  | .dict entries =>
    match Yaml.lookup "lat" entries, Yaml.lookup "lon" entries with
    | some lat, some lon => do pure ⟨← pyFloat lat, ← pyFloat lon⟩
    | _, _ => throw (.zoneConfig "rally_point: missing lat/lon")
  | _ => throw (.zoneConfig "rally_point: must be dict")

/-- The vertices of a polygon; a refused one is reported under its own index. -/
def coerceVertices (field : String) : ℕ → List Yaml → Except PyError (List LatLon)
  | _, [] => pure []
  | i, raw :: rest => do
    let name := s!"{field}[{i}]"
    let point ← tryCatch (coerceLatlng raw name) fun
      | .zoneConfig message => throw (.zoneConfig s!"{name}: {message}")
      | error => throw error
    pure (point :: (← coerceVertices field (i + 1) rest))

/-- The geometry check. Every exception in it, its own included, is wrapped. -/
def validatePolygon (shapely : Shapely) (points : List LatLon) (invalid failed : String) :
    Except PyError Unit :=
  match shapely.isValid (points.map fun p => (p.lat, p.lon)) with
  | .ok true => pure ()
  | .ok false => throw (.zoneConfig s!"{failed}: {invalid}")
  | .error message => throw (.zoneConfig s!"{failed}: {message}")

def coerceBoundary (shapely : Shapely) : Yaml → Except PyError (List LatLon)
  | .list raw => do
    if raw.length < 3 then throw (.zoneConfig "boundary: must have at least 3 vertices")
    let points ← coerceVertices "boundary" 0 raw
    validatePolygon shapely points "boundary: invalid polygon geometry"
      "boundary: Shapely validation failed"
    pure points
  | _ => throw (.zoneConfig "boundary: must be list")

def coerceExclusionZone (shapely : Shapely) (i : ℕ) : Yaml → Except PyError ExclusionZone
  | .dict entries => do
    if (Yaml.lookup "name" entries).isNone then
      throw (.zoneConfig s!"exclusion_zones[{i}]: missing name")
    match Yaml.lookup "polygon" entries with
    | none => throw (.zoneConfig s!"exclusion_zones[{i}]: missing polygon")
    | some (.list raw) =>
      if raw.length < 3 then refuse
      else
        let polygon ← coerceVertices s!"exclusion_zones[{i}].polygon" 0 raw
        validatePolygon shapely polygon s!"exclusion_zones[{i}].polygon: invalid geometry"
          s!"exclusion_zones[{i}].polygon: validation failed"
        let _ ← strOf (Yaml.getD entries "name" .null)
        pure ⟨← pyFloat (Yaml.getD entries "buffer_m" (.float (.fin 0))), polygon⟩
    | some _ => refuse
  | _ => throw (.zoneConfig s!"exclusion_zones[{i}]: must be dict")
where
  refuse : Except PyError ExclusionZone :=
    throw (.zoneConfig s!"exclusion_zones[{i}].polygon: must be list with ≥3 vertices")

def coerceExclusionZones (shapely : Shapely) : Yaml → Except PyError (List ExclusionZone)
  | .list raw => raw.zipIdx.mapM fun (zone, i) => coerceExclusionZone shapely i zone
  | _ => throw (.zoneConfig "exclusion_zones: must be list")

def coerceCoverage : Yaml → Except PyError CoverageParams
  | .dict entries => do
    let get := Yaml.getD entries
    let cuttingWidth ← pyFloat (get "cutting_width_in" (.float (.fin 54)))
    if cuttingWidth.le (.fin 0) then
      throw (.zoneConfig "coverage.cutting_width_in: must be > 0")
    let overlapPct ← pyFloat (get "overlap_pct" (.float (.fin 10)))
    if !(PyFloat.le (.fin 0) overlapPct && overlapPct.le (.fin 50)) then
      throw (.zoneConfig "coverage.overlap_pct: must be 0-50")
    let mowSpeed ← pyFloat (get "mow_speed_mps" (.float (.fin 2)))
    if mowSpeed.le (.fin 0) then
      throw (.zoneConfig "coverage.mow_speed_mps: must be > 0")
    let turnSpeed ← pyFloat (get "turn_speed_mps" (.float (.fin 1)))
    if turnSpeed.le (.fin 0) then
      throw (.zoneConfig "coverage.turn_speed_mps: must be > 0")
    let _ ← strOf (get "pattern" (.str "boustrophedon"))
    pure { cuttingWidthIn := cuttingWidth
           overlapPct := overlapPct
           angleDeg := ← pyFloat (get "angle_deg" (.float (.fin 0)))
           headlandPasses := ← pyInt (get "headland_passes" (.int 2))
           mowSpeedMps := mowSpeed
           turnSpeedMps := turnSpeed }
  | _ => pure {}

def coerceCommands : Yaml → Except PyError MissionCommands
  | .dict entries => do
    let get := Yaml.getD entries
    pure { fenceEnable := pyBool (get "fence_enable" (.bool true))
           resumeDistM := ← pyFloat (get "resume_dist_m" (.float (.fin (5 / 2))))
           bladeEngage := pyBool (get "blade_engage" (.bool true)) }
  | _ => pure {}

def coerceSlam : Yaml → Except PyError Unit
  | .dict entries => do
    let _ ← strOf (Yaml.getD entries "mode" (.str "localization"))
  | _ => pure ()

def coerceOutput : Yaml → Except PyError Unit
  | .dict entries => do
    let _ ← strOf (Yaml.getD entries "waypoints_file" (.str ""))
    let _ ← strOf (Yaml.getD entries "geojson_file" (.str ""))
  | _ => pure ()

/-- One character of a zone id after the first. -/
def zoneIdChar (c : Char) : Bool := ('a' ≤ c && c ≤ 'z') || ('0' ≤ c && c ≤ '9') || c =
    '_' || c = '-'

def zoneIdBody : List Char → Bool
  | c :: cs => 'a' ≤ c && c ≤ 'z' && cs.all zoneIdChar && cs.length ≤ 31
  | [] => false

/-- `re.match(r"^[a-z][a-z0-9_-]{0,31}$", s)`; `$` also matches before a final newline. -/
def zoneIdMatches (s : String) : Bool :=
  let cs := s.toList
  zoneIdBody cs || (cs.getLast? = some '\n' && zoneIdBody cs.dropLast)

def requireField (entries : List (Yaml × Yaml)) (field : String) : Except PyError Yaml :=
  match Yaml.lookup field entries with
  | some raw => pure raw
  | none => throw (.zoneConfig s!"missing required field: {field}")

def coerce (shapely : Shapely) (entries : List (Yaml × Yaml)) : Except PyError ZoneConfig := do
  let rawSchema ← requireField entries "schema"
  let rawId ← requireField entries "zone_id"
  let rawName ← requireField entries "name"
  let home ← requireField entries "home"
  let rallyPoint ← requireField entries "rally_point"
  let boundary ← requireField entries "boundary"
  let zoneId ← strOf rawId
  if !zoneIdMatches zoneId then
    throw (.zoneConfig "zone_id: must match ^[a-z][a-z0-9_-]\x7b0,31\x7d$")
  let schema ← strOf rawSchema
  let _ ← strOf rawName
  let _ ← strOf (Yaml.getD entries "description" (.str ""))
  let home ← coerceLatlng home "home"
  let rallyPoint ← coerceRallyPoint rallyPoint
  let boundary ← coerceBoundary shapely boundary
  let exclusionZones ← coerceExclusionZones shapely (Yaml.getD entries "exclusion_zones" (.list []))
  let coverage ← coerceCoverage (Yaml.getD entries "coverage" (.dict []))
  let commands ← coerceCommands (Yaml.getD entries "commands" (.dict []))
  coerceSlam (Yaml.getD entries "slam" (.dict []))
  coerceOutput (Yaml.getD entries "output" (.dict []))
  pure { schema := schema
         zoneId := zoneId
         home := home
         rallyPoint := rallyPoint
         boundary := boundary
         exclusionZones := exclusionZones
         coverage := coverage
         commands := commands }

/-- What reading a file and parsing it raises besides `YAMLError`: an integer of too
many digits is a plain `ValueError`, and nesting that is too deep a `RecursionError`. -/
inductive ReadError
  | os (message : String)
  | unicodeDecode (message : String)
  | value (message : String)
  | recursion (message : String)

/-- No handler tells the last three from one another; `PyError.value` is left to the
errors that the loaders of the configurations raise themselves. -/
def ReadError.toPyError : ReadError → PyError
  | .os message => .os message
  | .unicodeDecode message | .value message | .recursion message => .other message

/-- What reading a file and parsing it as YAML gives. -/
inductive YamlFile
  | missing
  | malformed (message : String)
  | raised (error : ReadError)
  | document (raw : Yaml)

def loadZoneConfig (shapely : Shapely) (path : String) : YamlFile → Except PyError ZoneConfig
  | .missing => throw (.fileNotFound s!"Zone config not found: {path}")
  | .malformed message => throw (.zoneConfig s!"Invalid YAML in {path}: {message}")
  | .raised error => throw error.toPyError
  | .document .null => throw (.zoneConfig s!"Empty YAML file: {path}")
  | .document (.dict entries) => coerce shapely entries
  | .document raw => throw (.zoneConfig s!"YAML root must be dict, got <class '{raw.typeName}'>")

theorem coerceVertices_length {path : String} {i : ℕ} {raw : List Yaml} {points : List LatLon}
    (h : coerceVertices path i raw = .ok points) : points.length = raw.length := by
  induction raw generalizing i points with
  | nil =>
    obtain rfl : [] = points := by simpa [coerceVertices] using h
    rfl
  | cons vertex raw ih =>
    simp only [coerceVertices, bind_eq_ok] at h
    obtain ⟨point, -, rest, hrest, h⟩ := h
    obtain rfl := Except.ok.inj h
    simp [ih hrest]

theorem coerceBoundary_length {shapely : Shapely} {raw : Yaml} {points : List LatLon}
    (h : coerceBoundary shapely raw = .ok points) : 3 ≤ points.length := by
  cases raw with
  | list raw =>
    by_cases hlen : raw.length < 3
    · simp [coerceBoundary, hlen] at h
    · simp only [coerceBoundary, if_neg hlen, bind_eq_ok] at h
      obtain ⟨points', hpoints, -, -, h⟩ := h
      obtain rfl := Except.ok.inj h
      have := coerceVertices_length hpoints
      omega
  | _ => simp [coerceBoundary] at h

/-- An accepted exclusion has a list of three vertices at least. -/
theorem coerceExclusionZone_polygon {shapely : Shapely} {i : ℕ} {raw : Yaml} {ez : ExclusionZone}
    (h : coerceExclusionZone shapely i raw = .ok ez) :
    ∃ entries vertices, raw = .dict entries ∧
      Yaml.lookup "polygon" entries = some (.list vertices) ∧ 3 ≤ vertices.length ∧
      coerceVertices s!"exclusion_zones[{i}].polygon" 0 vertices = .ok ez.polygon := by
  cases raw with
  | dict entries =>
    unfold coerceExclusionZone at h
    dsimp only at h
    split_ifs at h with hname
    · simp at h
    split at h
    · simp at h
    · rename_i vertices hvertices
      split_ifs at h with hlen
      · simp [coerceExclusionZone.refuse] at h
      · simp only [bind_eq_ok] at h
        obtain ⟨polygon, hpolygon, -, -, -, -, buffer, -, h⟩ := h
        obtain rfl := Except.ok.inj h
        exact ⟨entries, vertices, rfl, hvertices, not_lt.mp hlen, hpolygon⟩
    · simp [coerceExclusionZone.refuse] at h
  | _ => simp [coerceExclusionZone] at h

theorem coerceExclusionZones_length {shapely : Shapely} {raw : Yaml} {zones : List ExclusionZone}
    (h : coerceExclusionZones shapely raw = .ok zones) :
    ∀ ez ∈ zones, 3 ≤ ez.polygon.length := by
  intro ez hez
  cases raw with
  | list raw =>
    obtain ⟨⟨zone, i⟩, -, hzone⟩ := exists_of_mem_mapM h hez
    obtain ⟨entries, vertices, -, -, hlen, hpolygon⟩ := coerceExclusionZone_polygon hzone
    rwa [coerceVertices_length hpolygon]
  | _ => simp [coerceExclusionZones] at h

theorem requireField_eq_ok {entries : List (Yaml × Yaml)} {field : String} {raw : Yaml} :
    requireField entries field = .ok raw ↔ Yaml.lookup field entries = some raw := by
  unfold requireField
  cases Yaml.lookup field entries <;> simp

/-- Where the parts of a loaded zone come from. -/
structure Coerced (shapely : Shapely) (entries : List (Yaml × Yaml)) (zone : ZoneConfig) :
    Prop where
  schema : strOf (Yaml.getD entries "schema" .null) = .ok zone.schema
  zoneId : strOf (Yaml.getD entries "zone_id" .null) = .ok zone.zoneId
  zoneIdMatches : zoneIdMatches zone.zoneId = true
  home : coerceLatlng (Yaml.getD entries "home" .null) "home" = .ok zone.home
  rallyPoint : coerceRallyPoint (Yaml.getD entries "rally_point" .null) = .ok zone.rallyPoint
  boundary : coerceBoundary shapely (Yaml.getD entries "boundary" .null) = .ok zone.boundary
  exclusionZones : coerceExclusionZones shapely (Yaml.getD entries "exclusion_zones" (.list [])) =
    .ok zone.exclusionZones
  coverage : coerceCoverage (Yaml.getD entries "coverage" (.dict [])) = .ok zone.coverage
  commands : coerceCommands (Yaml.getD entries "commands" (.dict [])) = .ok zone.commands

theorem coerced_of_coerce {shapely : Shapely} {entries : List (Yaml × Yaml)} {zone : ZoneConfig}
    (h : coerce shapely entries = .ok zone) : Coerced shapely entries zone := by
  simp only [coerce, bind_eq_ok, requireField_eq_ok] at h
  obtain ⟨rawSchema, hschema, rawId, hid, rawName, hname, home, hhome, rallyPoint, hrally, boundary,
    hboundary, zoneId, hzoneId, h⟩ := h
  split_ifs at h with hno
  · cases h
  have hmatches : zoneIdMatches zoneId = true := by simpa using hno
  simp only [bind_eq_ok] at h
  obtain ⟨schema, hschema', -, -, -, -, point, hpoint, rally, hrally', points, hpoints, exclusions,
    hexclusions, coverage, hcoverage, commands, hcommands, -, -, -, -, h⟩ := h
  obtain rfl := Except.ok.inj h
  constructor
  · rw [Yaml.getD_of_lookup hschema, hschema']
  · rw [Yaml.getD_of_lookup hid, hzoneId]
  · exact hmatches
  · rw [Yaml.getD_of_lookup hhome, hpoint]
  · rw [Yaml.getD_of_lookup hrally, hrally']
  · rw [Yaml.getD_of_lookup hboundary, hpoints]
  · exact hexclusions
  · exact hcoverage
  · exact hcommands

theorem coerced_of_load {shapely : Shapely} {path : String} {file : YamlFile} {zone : ZoneConfig}
    (h : loadZoneConfig shapely path file = .ok zone) :
    ∃ entries, file = .document (.dict entries) ∧ Coerced shapely entries zone := by
  match file, h with
  | .document (.dict entries), h => exact ⟨entries, rfl, coerced_of_coerce h⟩

theorem loadZoneConfig_boundary {shapely : Shapely} {path : String} {file : YamlFile}
    {zone : ZoneConfig} (h : loadZoneConfig shapely path file = .ok zone) :
    3 ≤ zone.boundary.length := by
  obtain ⟨entries, -, hcoerced⟩ := coerced_of_load h
  exact coerceBoundary_length hcoerced.boundary

end MowerRover.Zone
