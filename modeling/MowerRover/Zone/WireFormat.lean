import MowerRover.Zone.MissionItems

/-!
# Verification across the wire format

The float fields of a mission item travel in single precision. What the
autopilot lists is therefore not what was sent, and the verification has to
tolerate the difference. Its tolerance is one absolute constant, while the
rounding error grows with the value; of the fields the code sends, only the
mowing speed and the resume distance are not small integers.
-/

namespace MowerRover.Zone

open Numeric Mavlink Effects

/-- Rounding to single precision. -/
structure Float32 where
  round : ℚ → ℚ
  relativeError : ∀ q, |round q - q| ≤ 2 ^ (-24 : ℤ) * |q|
  exact : ∀ n : ℤ, |n| < 2 ^ 24 → round n = n

/-- Round to nearest, ties to even. -/
def Float32.nearest : Float32 where
  round := roundTo 24
  relativeError := roundTo_relativeError 24
  exact _ hn := roundTo_intCast hn

/-- A float after it was packed into a message; special values are kept. -/
def wireFloat (fl : Float32) : PyFloat → PyFloat
  | .fin q => .fin (fl.round q)
  | f => f

def wireItem (fl : Float32) (item : MissionItem) : MissionItem :=
  { item with
    param1 := wireFloat fl item.param1
    param2 := wireFloat fl item.param2
    param3 := wireFloat fl item.param3
    param4 := wireFloat fl item.param4
    z := wireFloat fl item.z }

/-- Single precision moves the value by no more than the tolerance. -/
def FitsWire (fl : Float32) (f : PyFloat) : Prop := ∀ q, f = .fin q → |q - fl.round q| ≤ tolerance

theorem close_wireFloat_iff (fl : Float32) (f : PyFloat) :
    Close f (wireFloat fl f) ↔ FitsWire fl f := by
  cases f with
  | fin q => simp [Close, wireFloat, FitsWire, not_lt]
  | inf s => simp [FitsWire, wireFloat, close_refl]
  | nan => simp [FitsWire, wireFloat, close_refl]

theorem fitsWire_intCast (fl : Float32) {n : ℤ} (hn : |n| < 2 ^ 24) : FitsWire fl (.fin n) := by
  rintro q hq
  obtain rfl : (n : ℚ) = q := by simpa using hq
  rw [fl.exact n hn]
  norm_num [tolerance]

theorem itemMatch_wireItem_iff (fl : Float32) (item : MissionItem) :
    ItemMatch item (wireItem fl item) ↔ FitsWire fl item.param1 ∧ FitsWire fl item.param2 ∧
      FitsWire fl item.param3 ∧ FitsWire fl item.param4 ∧ FitsWire fl item.z := by
  simp only [← close_wireFloat_iff]
  constructor
  · intro h
    exact ⟨h.param1, h.param2, h.param3, h.param4, h.z⟩
  · rintro ⟨h1, h2, h3, h4, hz⟩
    exact ⟨rfl, rfl, rfl, h1, h2, h3, h4, rfl, rfl, hz, rfl, rfl, rfl⟩

section Zone

variable (fl : Float32)

theorem fitsWire_zero : FitsWire fl (.fin 0) := by
  exact_mod_cast fitsWire_intCast fl (n := 0) (by norm_num)

theorem fitsWire_one : FitsWire fl (.fin 1) := by
  exact_mod_cast fitsWire_intCast fl (n := 1) (by norm_num)

theorem fitsWire_two : FitsWire fl (.fin 2) := by
  exact_mod_cast fitsWire_intCast fl (n := 2) (by norm_num)

theorem waypointItems_match {seq : ℕ} {waypoints : List LatLon} {items : List MissionItem}
    (h : waypointItems seq waypoints = .ok items) :
    ∀ item ∈ items, ItemMatch item (wireItem fl item) := by
  induction waypoints generalizing seq items with
  | nil =>
    obtain rfl : [] = items := by simpa [waypointItems] using h
    simp
  | cons waypoint waypoints ih =>
    simp only [waypointItems, bind_eq_ok] at h
    obtain ⟨⟨x, y⟩, -, rest, hrest, h⟩ := h
    obtain rfl := Except.ok.inj h
    simp only [List.forall_mem_cons, itemMatch_wireItem_iff]
    refine ⟨⟨fitsWire_zero fl, fitsWire_two fl, fitsWire_zero fl, fitsWire_zero fl,
      fitsWire_zero fl⟩, fun item hm => (itemMatch_wireItem_iff fl item).mp (ih hrest item hm)⟩

theorem missionHead_match_iff (zone : ZoneConfig) (home : ℤ × ℤ) :
    (∀ item ∈ missionHead zone home, ItemMatch item (wireItem fl item)) ↔
      FitsWire fl zone.coverage.mowSpeedMps ∧ FitsWire fl zone.commands.resumeDistM := by
  simp only [missionHead, List.cons_append, List.nil_append, List.forall_mem_cons,
    itemMatch_wireItem_iff]
  have hswitch : ∀ item ∈ (if zone.commands.fenceEnable then
      [({ seq := 3, frame := mavFrameGlobalInt, command := mavCmdDoFenceEnable
          param1 := .fin 1 } : MissionItem)] else []),
      FitsWire fl item.param1 ∧ FitsWire fl item.param2 ∧ FitsWire fl item.param3 ∧
        FitsWire fl item.param4 ∧ FitsWire fl item.z := by
    split_ifs <;> simp [fitsWire_zero, fitsWire_one]
  constructor
  · rintro ⟨-, ⟨-, hspeed, -⟩, ⟨hdist, -⟩, -⟩
    exact ⟨hspeed, hdist⟩
  · rintro ⟨hspeed, hdist⟩
    have h0 := fitsWire_zero fl
    have h1 := fitsWire_one fl
    exact ⟨⟨h0, h0, h0, h0, h0⟩, ⟨h1, hspeed, h0, h0, h0⟩, ⟨hdist, h0, h0, h0, h0⟩, hswitch⟩

theorem zoneToMission_match_iff {zone : ZoneConfig} {waypoints : List LatLon}
    {items : List MissionItem} (h : zoneToMission zone waypoints = .ok items) :
    List.Forall₂ ItemMatch items (items.map (wireItem fl)) ↔
      FitsWire fl zone.coverage.mowSpeedMps ∧ FitsWire fl zone.commands.resumeDistM := by
  rw [List.forall₂_map_right_iff, List.forall₂_same]
  simp only [zoneToMission, bind_eq_ok] at h
  obtain ⟨home, -, rest, hrest, h⟩ := h
  obtain rfl := Except.ok.inj h
  rw [← missionHead_match_iff fl zone home, List.forall_mem_append]
  exact and_iff_left (waypointItems_match fl hrest)

end Zone

/-- An autopilot that stores the mission in single precision, with nothing under way. -/
structure StoresWire (fl : Float32) (items : List MissionItem) (w : World) : Prop where
  store : w.store 0 = items.map (wireItem fl)
  upload : w.upload = none
  quiet : w.inbox = [] ∧ w.toClient = [] ∧ w.toAutopilot = [] ∧ w.emitted = []

theorem StoresWire.serving {fl : Float32} {items : List MissionItem} {w : World}
    (hw : StoresWire fl items w) : Serving (items.map (wireItem fl)) 0 [] w := by
  obtain ⟨hin, hcl, hap, hem⟩ := hw.quiet
  refine ⟨hw.store, hw.upload, by simp [hap], ?_, by simp⟩
  simp [OnAir, World.air, hin, hcl, hem]

theorem numbered_wireItem {items : List MissionItem} {t : ℕ} (fl : Float32)
    (hn : Numbered items t) : Numbered (items.map (wireItem fl)) t := by
  intro i hi
  simpa [wireItem] using hn i (by simpa using hi)

theorem verifyRoundTrip_wire {fl : Float32} {zone : ZoneConfig} {waypoints : List LatLon}
    {items : List MissionItem} (hitems : zoneToMission zone waypoints = .ok items) (conn : Conn)
    {s : ClosedLoop} (hs : StoresWire fl items s.state) {L : List (Option MissionItem)}
    (hL : ((downloadMission conn 0).run closedLoop s).result = .ok L) :
    ∃ b, ((verifyRoundTrip conn items 0).run closedLoop s).result = .ok b ∧ (b = true ↔
      FitsWire fl zone.coverage.mowSpeedMps ∧ FitsWire fl zone.commands.resumeDistM) := by
  have hn := numbered_wireItem fl (zoneToMission_numbered hitems).1
  obtain ⟨-, -, b, hb, hiff⟩ := verifyRoundTrip_run isLink_closedLoop conn items 0 s
  refine ⟨b, hb, ?_⟩
  rw [hiff, ← zoneToMission_match_iff fl hitems]
  rw [hL, (downloadMission_serves conn hn s hs.serving).2 L hL]
  simp only [Except.ok.injEq, map_some_inj, exists_eq_left']

/-- Whenever the stored mission can be read back, the verification passes exactly
when single precision moves the mowing speed and the resume distance of the
zone by no more than the tolerance. -/
theorem verifyRoundTrip_wire_iff (fl : Float32) (conn : Conn) (zone : ZoneConfig)
    (waypoints : List LatLon) (items : List MissionItem)
    (hitems : zoneToMission zone waypoints = .ok items) (s : ClosedLoop)
    (hs : StoresWire fl items s.state) (L : List (Option MissionItem))
    (hL : ((downloadMission conn 0).run closedLoop s).result = .ok L) :
    ((verifyRoundTrip conn items 0).run closedLoop s).result = .ok true ↔
      FitsWire fl zone.coverage.mowSpeedMps ∧ FitsWire fl zone.commands.resumeDistM := by
  obtain ⟨b, hb, hiff⟩ := verifyRoundTrip_wire hitems conn hs hL
  rw [hb, Except.ok.injEq, hiff]

/-- A file for a triangular zone at this mowing speed, with the fence left off. -/
def triangleFile (speed : Yaml) : YamlFile :=
  let vertex (lat lon : ℤ) : Yaml := .list [.float (.fin lat), .float (.fin lon)]
  .document (.dict [
    (.str "schema", .str "mower-rover.zone.v1"), (.str "zone_id", .str "ne"),
    (.str "name", .str "North East Lawn"), (.str "home", vertex 0 0),
    (.str "rally_point", .dict [(.str "lat", .float (.fin 0)), (.str "lon", .float (.fin 1))]),
    (.str "boundary", .list [vertex 0 0, vertex 0 1, vertex 1 1]),
    (.str "coverage", .dict [(.str "mow_speed_mps", speed)]),
    (.str "commands", .dict [(.str "fence_enable", .bool false)])])

def triangleZone (speed : PyFloat) : ZoneConfig where
  schema := "mower-rover.zone.v1"
  zoneId := "ne"
  home := ⟨.fin 0, .fin 0⟩
  rallyPoint := ⟨.fin 0, .fin 1⟩
  boundary := [⟨.fin 0, .fin 0⟩, ⟨.fin 0, .fin 1⟩, ⟨.fin 1, .fin 1⟩]
  coverage := { mowSpeedMps := speed }
  commands := { fenceEnable := false }

def triangleItems (speed : PyFloat) : List MissionItem :=
  [{ seq := 0, frame := 5, command := 16, current := 1 },
   { seq := 1, frame := 5, command := 178, param1 := .fin 1, param2 := speed },
   { seq := 2, frame := 5, command := 215, param1 := .fin (5 / 2) },
   { seq := 3, frame := 5, command := 16, param2 := .fin 2, x := 10000000 }]

/-- A prompt autopilot that stores these items in single precision. -/
def storedLoop (items : List MissionItem) : ClosedLoop :=
  ⟨⟨[], [], [], [], fun _ => items.map (wireItem .nearest), none, false, false⟩,
    List.replicate 20 ⟨[.handle, .deliver], 2⟩⟩

theorem triangleZone_items (speed : PyFloat) :
    zoneToMission (triangleZone speed) [⟨.fin 1, .fin 0⟩] = .ok (triangleItems speed) := by
  have hhome : latlngToInt32 ⟨.fin 0, .fin 0⟩ = .ok (0, 0) := by decide +kernel
  have hpoint : latlngToInt32 ⟨.fin 1, .fin 0⟩ = .ok (10000000, 0) := by decide +kernel
  rw [zoneToMission, show (triangleZone speed).home = ⟨.fin 0, .fin 0⟩ from rfl, hhome]
  simp only [waypointItems, hpoint]
  rfl

theorem storedLoop_stores (items : List MissionItem) :
    StoresWire .nearest items (storedLoop items).state := ⟨rfl, rfl, rfl, rfl, rfl, rfl⟩

theorem resumeDist_fitsWire : FitsWire .nearest (.fin (5 / 2)) := by
  rintro _ ⟨rfl⟩
  have hunit : lastPlace 24 (5 / 2) = 2 ^ (2 - 24 : ℤ) :=
    lastPlace_eq (e := 1) 24 (by norm_num [abs_of_pos]) (by norm_num [abs_of_pos])
  have hmul : (5 / 2 : ℚ) = (10485760 : ℤ) * 2 ^ (2 - 24 : ℤ) := by norm_num
  have hval : roundTo 24 (5 / 2) = 5 / 2 := by
    rw [roundTo, hunit, hmul, roundAt_mul (by positivity)]
  rw [show Float32.nearest.round = roundTo 24 from rfl, hval]
  norm_num [tolerance]

/-- A zone that is mown at two metres per second is verified. -/
theorem verifyRoundTrip_wire_two :
    loadZoneConfig ⟨fun _ => .ok true⟩ "zones/ne.yaml" (triangleFile (.float (.fin 2))) =
      .ok (triangleZone (.fin 2)) ∧
    zoneToMission (triangleZone (.fin 2)) [⟨.fin 1, .fin 0⟩] = .ok (triangleItems (.fin 2)) ∧
    ((verifyRoundTrip ⟨1, 1⟩ (triangleItems (.fin 2)) 0).run closedLoop
      (storedLoop (triangleItems (.fin 2)))).result = .ok true := by
  have hread : ((downloadMission ⟨1, 1⟩ 0).run closedLoop
      (storedLoop (triangleItems (.fin 2)))).result.isOk = true := by decide +kernel
  obtain ⟨L, hL⟩ := exists_ok_of_isOk hread
  refine ⟨by decide +kernel, triangleZone_items _, ?_⟩
  refine (verifyRoundTrip_wire_iff .nearest ⟨1, 1⟩ (triangleZone (.fin 2)) _ _
    (triangleZone_items _) _ (storedLoop_stores _) L hL).mpr
      ⟨fitsWire_two _, resumeDist_fitsWire⟩

/-- The double nearest to 4.2. -/
def speed42 : PyFloat := .fin (4728779608739021 / 2 ^ 50)

theorem speed42_not_fitsWire : ¬ FitsWire .nearest speed42 := by
  intro h
  have hunit : lastPlace 24 (4728779608739021 / 2 ^ 50) = 2 ^ (3 - 24 : ℤ) :=
    lastPlace_eq (e := 2) 24 (by norm_num) (by norm_num)
  have hround : roundHalfEven (4728779608739021 / 2 ^ 29) = 8808038 := by
    have hfloor : ⌊(4728779608739021 / 2 ^ 29 : ℚ)⌋ = 8808038 := by norm_num
    simp only [roundHalfEven, hfloor]
    norm_num
  have hval : roundTo 24 (4728779608739021 / 2 ^ 50) = 8808038 / 2 ^ 21 := by
    rw [roundTo, roundAt, hunit, show (4728779608739021 / 2 ^ 50 : ℚ) / 2 ^ (3 - 24 : ℤ) =
      4728779608739021 / 2 ^ 29 by norm_num, hround]
    norm_num
  have := h _ rfl
  rw [show Float32.nearest.round = roundTo 24 from rfl, hval] at this
  norm_num [tolerance, abs_of_pos] at this

/-- The same zone at 4.2 metres per second is loaded, stored and read back, and
the verification fails. -/
theorem verifyRoundTrip_wire_fails :
    loadZoneConfig ⟨fun _ => .ok true⟩ "zones/ne.yaml" (triangleFile (.float speed42)) =
      .ok (triangleZone speed42) ∧
    zoneToMission (triangleZone speed42) [⟨.fin 1, .fin 0⟩] = .ok (triangleItems speed42) ∧
    (storedLoop (triangleItems speed42)).state.store 0 =
      (triangleItems speed42).map (wireItem .nearest) ∧
    ((verifyRoundTrip ⟨1, 1⟩ (triangleItems speed42) 0).run closedLoop
      (storedLoop (triangleItems speed42))).result = .ok false := by
  have hread : ((downloadMission ⟨1, 1⟩ 0).run closedLoop
      (storedLoop (triangleItems speed42))).result.isOk = true := by decide +kernel
  obtain ⟨L, hL⟩ := exists_ok_of_isOk hread
  refine ⟨by decide +kernel, triangleZone_items _, rfl, ?_⟩
  obtain ⟨b, hb, hiff⟩ := verifyRoundTrip_wire (triangleZone_items speed42) ⟨1, 1⟩
    (storedLoop_stores _) hL
  rw [hb, Bool.eq_false_iff.mpr fun h => speed42_not_fitsWire (hiff.mp h).1]

end MowerRover.Zone
