import MowerRover.Numeric.Limits
import MowerRover.Zone.FenceCode

/-!
# The fence check before a mission

The check compares the items of the autopilot's fence with those of the zone.
It counts them and compares their coordinates, and it reads neither their
commands nor the numbers of vertices in them.
-/

namespace MowerRover.Probe

open Numeric Mavlink Zone

/-- The double nearest to `1e-7`. -/
def degreeTolerance : PyFloat := .ofRat (1 / 10 ^ 7)

/-- What the text of the result is made of. -/
inductive FenceDetail
  | countMismatch (expected got : ℕ)
  | vertexMismatch (i : ℕ) (expected got : PyFloat × PyFloat) (latDiff lonDiff : PyFloat)
  | matched (vertices : ℕ) (tolerance : PyFloat)
  deriving DecidableEq

/-- `x / 1e7` on an integer. -/
def degrees (x : ℤ) : Except PyError PyFloat := do
  match ← floatOfInt x with
  | .fin q => pure (.ofRat (q / 10 ^ 7))
  | f => pure f

/-- `abs(expected - actual)`. -/
def degreeDiff (expected actual : PyFloat) : PyFloat :=
  match expected.sub actual with
  | .fin q => (PyFloat.ofRat q).abs
  | f => f.abs

/-- The comparison of one vertex. -/
def compareVertex (tolerance : PyFloat) (i : ℕ) (expected actual : ℤ × ℤ) :
    Except PyError (Option FenceDetail) := do
  let expectedLat ← degrees expected.1
  let expectedLon ← degrees expected.2
  let actualLat ← degrees actual.1
  let actualLon ← degrees actual.2
  let latDiff := degreeDiff expectedLat actualLat
  let lonDiff := degreeDiff expectedLon actualLon
  if tolerance.lt latDiff || tolerance.lt lonDiff then
    pure (some (.vertexMismatch i (expectedLat, expectedLon) (actualLat, actualLon) latDiff
      lonDiff))
  else pure none

/-- The first vertex that is not where it is expected. -/
def compareVertices (tolerance : PyFloat) :
    ℕ → List (MissionItem × MissionItem) → Except PyError (Option FenceDetail)
  | _, [] => pure none
  | i, (expected, actual) :: rest => do
    match ← compareVertex tolerance i (position expected) (position actual) with
    | some detail => pure (some detail)
    | none => compareVertices tolerance (i + 1) rest

def checkFenceMatch (zone : ZoneConfig) (fenceItems : List MissionItem)
    (tolerance : PyFloat := degreeTolerance) : Except PyError (Bool × FenceDetail) := do
  let expected ← zoneToFence zone
  if expected.length ≠ fenceItems.length then
    pure (false, .countMismatch expected.length fenceItems.length)
  else
    match ← compareVertices tolerance 0 (expected.zip fenceItems) with
    | some detail => pure (false, detail)
    | none => pure (true, .matched fenceItems.length tolerance)

/-- Coordinates whose degrees are within the tolerance. -/
def CloseDegrees (expected actual : ℤ) : Prop :=
  ∃ a b, degrees expected = .ok a ∧ degrees actual = .ok b ∧
    degreeTolerance.lt (degreeDiff a b) = false

def ClosePositions (expected actual : ℤ × ℤ) : Prop :=
  CloseDegrees expected.1 actual.1 ∧ CloseDegrees expected.2 actual.2

/-- The same command, as many vertices, and each of them within the tolerance. -/
def SamePolygon (expected actual : FencePolygon) : Prop :=
  expected.command = actual.command ∧ List.Forall₂ ClosePositions expected.vertices actual.vertices

/-- Items that are read as the polygons the zone is fenced by. -/
def SameFence (zone : ZoneConfig) (items : List MissionItem) : Prop :=
  ∃ expected polygons actual, zoneToFence zone = .ok expected ∧ decodeFence expected =
    some polygons ∧
    decodeFence items = some actual ∧ List.Forall₂ SamePolygon polygons actual

/-- The check passes only fences that are the zone's, and passes the zone's own. -/
def FenceMatchSound (zone : ZoneConfig) (items : List MissionItem) : Prop :=
  (∀ detail, checkFenceMatch zone items = .ok (true, detail) → SameFence zone items) ∧
    ∀ expected, zoneToFence zone = .ok expected →
      ∃ detail, checkFenceMatch zone expected = .ok (true, detail)

def Close (expected actual : MissionItem) : Prop :=
    ClosePositions (position expected) (position actual)

/-- Two items of one command that announce a polygon of one size, or none. -/
def Agree (expected actual : MissionItem) : Prop :=
  expected.command = actual.command ∧ announced expected = announced actual

section Comparison

variable {expected items : List MissionItem}

theorem compareVertex_none_iff {i : ℕ} {p q : ℤ × ℤ} :
    compareVertex degreeTolerance i p q = .ok none ↔ ClosePositions p q := by
  simp only [compareVertex, bind_eq_ok]
  constructor
  · rintro ⟨a, ha, b, hb, c, hc, d, hd, h⟩
    split_ifs at h with hfar
    · simp at h
    · rw [Bool.or_eq_true, not_or, Bool.not_eq_true, Bool.not_eq_true] at hfar
      exact ⟨⟨a, c, ha, hc, hfar.1⟩, b, d, hb, hd, hfar.2⟩
  · rintro ⟨⟨a, c, ha, hc, hlat⟩, b, d, hb, hd, hlon⟩
    refine ⟨a, ha, b, hb, c, hc, d, hd, ?_⟩
    rw [hlat, hlon]
    rfl

theorem compareVertices_none_iff {i : ℕ} {pairs : List (MissionItem × MissionItem)} :
    compareVertices degreeTolerance i pairs = .ok none ↔ ∀ pair ∈ pairs, Close pair.1 pair.2 := by
  induction pairs generalizing i with
  | nil => simp [compareVertices]
  | cons pair pairs ih =>
    obtain ⟨e, a⟩ := pair
    rw [List.forall_mem_cons, compareVertices]
    constructor
    · intro h
      obtain ⟨found, hfound, h⟩ := bind_eq_ok.mp h
      cases found with
      | some detail => simp at h
      | none => exact ⟨compareVertex_none_iff.mp hfound, ih.mp h⟩
    · rintro ⟨hclose, hrest⟩
      rw [compareVertex_none_iff.mpr hclose]
      exact ih.mpr hrest

/-- The check passes when there are as many items and each is close to its own. -/
theorem checkFenceMatch_passes_iff {zone : ZoneConfig} (h : zoneToFence zone = .ok expected) :
    (∃ detail, checkFenceMatch zone items = .ok (true, detail)) ↔
      List.Forall₂ Close expected items := by
  have hzip : List.Forall₂ Close expected items ↔ expected.length = items.length ∧
      compareVertices degreeTolerance 0 (expected.zip items) = .ok none := by
    rw [List.forall₂_iff_zip, compareVertices_none_iff]
    exact and_congr_right fun _ => ⟨fun hall pair hpair => hall hpair,
      fun hall a b hab => hall (a, b) hab⟩
  rw [hzip, checkFenceMatch, h]
  simp only [ok_bind]
  by_cases hlen : expected.length = items.length
  · rw [if_neg (not_not.mpr hlen)]
    cases compareVertices degreeTolerance 0 (expected.zip items) with
    | error x => simp
    | ok found => cases found <;> simp [hlen]
  · simp [hlen]

end Comparison

theorem closeDegrees_self {x : ℤ} (h : floatOfInt x = .ok (.fin x)) : CloseDegrees x x := by
  have hzero : degreeTolerance.lt (.fin 0) = false := by decide +kernel
  refine ⟨.ofRat (x / 10 ^ 7), .ofRat (x / 10 ^ 7), ?_, ?_, ?_⟩
  · rw [degrees, h]
    rfl
  · rw [degrees, h]
    rfl
  · cases PyFloat.ofRat (x / 10 ^ 7) with
    | fin q =>
      have hself : degreeDiff (.fin q) (.fin q) = .fin 0 := by
        rw [degreeDiff, PyFloat.sub, sub_self]
        decide +kernel
      rw [hself, hzero]
    | inf s =>
      rw [degreeDiff, PyFloat.sub, if_pos rfl]
      decide +kernel
    | nan => decide +kernel

theorem truncate_mul_fits {f g : PyFloat} {i : ℤ} (h : truncate (f.mul g) = .ok i) :
    floatOfInt i = .ok (.fin i) := by
  cases f with
  | fin x =>
    cases g with
    | fin y => exact floatOfInt_truncate h
    | inf s =>
      rw [PyFloat.mul] at h
      split_ifs at h <;> simp [truncate] at h
    | nan => simp [PyFloat.mul, truncate] at h
  | inf s =>
    cases g with
    | fin y =>
      rw [PyFloat.mul] at h
      split_ifs at h <;> simp [truncate] at h
    | inf t => simp [PyFloat.mul, truncate] at h
    | nan => simp [PyFloat.mul, truncate] at h
  | nan => simp [PyFloat.mul, truncate] at h

theorem latlngToInt32_close {point : LatLon} {p : ℤ × ℤ} (h : latlngToInt32 point = .ok p) :
    ClosePositions p p := by
  simp only [latlngToInt32, bind_eq_ok] at h
  obtain ⟨x, hx, y, hy, h⟩ := h
  obtain rfl := Except.ok.inj h
  exact ⟨closeDegrees_self (truncate_mul_fits hx), closeDegrees_self (truncate_mul_fits hy)⟩

theorem decodePolygon_eq_some_iff {part : List MissionItem} {polygon : FencePolygon} :
    decodePolygon part = some polygon ↔ part ≠ [] ∧
      (∀ item ∈ part, item.command = polygon.command) ∧ polygon.vertices = part.map position := by
  cases part with
  | nil => simp [decodePolygon]
  | cons first rest =>
    obtain ⟨command, vertices⟩ := polygon
    rw [decodePolygon, Option.ite_none_right_eq_some, Option.some.injEq, FencePolygon.mk.injEq,
      List.forall_mem_cons]
    constructor
    · rintro ⟨hall, rfl, rfl⟩
      exact ⟨List.cons_ne_nil _ _, ⟨rfl, hall⟩, rfl⟩
    · rintro ⟨-, ⟨hfirst, hall⟩, rfl⟩
      dsimp only at hfirst hall
      subst hfirst
      exact ⟨hall, rfl, rfl⟩

section Agreement

variable {part part' : List MissionItem} {p q : FencePolygon}

theorem reads_of_agree (h : List.Forall₂ (fun e a => Close e a ∧ Agree e a) part part')
    (hp : Reads part p) : ∃ q, Reads part' q ∧ SamePolygon p q := by
  obtain ⟨hblock, hdecode⟩ := hp
  obtain ⟨hne, hcommand, hvertices⟩ := decodePolygon_eq_some_iff.mp hdecode
  have hannounced : part.map announced = part'.map announced := by
    rw [← List.forall₂_eq_eq_eq, List.forall₂_map_left_iff, List.forall₂_map_right_iff]
    exact h.imp fun e a hea => hea.2.2
  have hcommand' : ∀ item ∈ part', item.command = p.command := by
    have hcommands : part.map (·.command) = part'.map (·.command) := by
      rw [← List.forall₂_eq_eq_eq, List.forall₂_map_left_iff, List.forall₂_map_right_iff]
      exact h.imp fun e a hea => hea.2.1
    intro item hitem
    have hmem := List.mem_map_of_mem (f := MissionItem.command) hitem
    rw [← hcommands] at hmem
    obtain ⟨e, he, heq⟩ := List.mem_map.mp hmem
    rw [← heq, hcommand e he]
  refine ⟨⟨p.command, part'.map position⟩, ⟨hblock.congr hannounced, ?_⟩, rfl, ?_⟩
  · refine decodePolygon_eq_some_iff.mpr ⟨?_, hcommand', rfl⟩
    rintro rfl
    exact hne (List.forall₂_nil_right_iff.mp h)
  · rw [hvertices, List.forall₂_map_left_iff, List.forall₂_map_right_iff]
    exact h.imp fun e a hea => hea.1

theorem agree_of_reads (hp : Reads part p) (hq : Reads part' q) (h : SamePolygon p q) :
    List.Forall₂ Agree part part' := by
  obtain ⟨hblock, hdecode⟩ := hp
  obtain ⟨hblock', hdecode'⟩ := hq
  obtain ⟨-, hcommand, hvertices⟩ := decodePolygon_eq_some_iff.mp hdecode
  obtain ⟨-, hcommand', hvertices'⟩ := decodePolygon_eq_some_iff.mp hdecode'
  have hlen := h.2.length_eq
  rw [hvertices, hvertices', List.length_map, List.length_map] at hlen
  have hcommands : ∀ e ∈ part, ∀ a ∈ part', e.command = a.command := by
    intro e he a ha
    rw [hcommand e he, hcommand' a ha, h.1]
  obtain ⟨hcount, hrest⟩ := hblock
  obtain ⟨hcount', hrest'⟩ := hblock'
  rename_i first rest first' rest'
  rw [List.length_cons, List.length_cons, Nat.add_right_cancel_iff] at hlen
  apply List.Forall₂.cons
  · exact ⟨hcommands _ List.mem_cons_self _ List.mem_cons_self, by rw [hcount, hcount', hlen]⟩
  · refine List.forall₂_iff_zip.mpr ⟨hlen, fun {e a} hea => ?_⟩
    obtain ⟨he, ha⟩ := List.of_mem_zip hea
    exact ⟨hcommands e (List.mem_cons_of_mem _ he) a (List.mem_cons_of_mem _ ha), by
      rw [hrest e he, hrest' a ha]⟩

end Agreement

/-- Items with coordinates close to the zone's are the same fence exactly when their commands and
their numbers of vertices are the zone's too. -/
theorem sameFence_iff {zone : ZoneConfig} {expected items : List MissionItem}
    (h : zoneToFence zone = .ok expected) (hclose : List.Forall₂ Close expected items) :
    SameFence zone items ↔ List.Forall₂ Agree expected items := by
  constructor
  · rintro ⟨expected', polygons, actual, h', hpolygons, hactual, hsame⟩
    obtain rfl := Except.ok.inj (h.symm.trans h')
    obtain ⟨parts, rfl, hreads⟩ := decodeFence_eq_some_iff.mp hpolygons
    obtain ⟨parts', rfl, hreads'⟩ := decodeFence_eq_some_iff.mp hactual
    apply List.rel_flatten
    clear h h' hclose hpolygons hactual
    induction hreads generalizing parts' actual with
    | nil =>
      obtain rfl := List.forall₂_nil_left_iff.mp hsame
      obtain rfl := List.forall₂_nil_right_iff.mp hreads'
      exact .nil
    | cons hread _ ih =>
      obtain ⟨q, actual, hpq, hrest, rfl⟩ := List.forall₂_cons_left_iff.mp hsame
      obtain ⟨part', parts', hread', hrest', rfl⟩ := List.forall₂_cons_right_iff.mp hreads'
      exact .cons (agree_of_reads hread hread' hpq) (ih actual hrest parts' hrest')
  · intro hagree
    obtain ⟨polygons, hpolygons⟩ := decodeFence_zoneToFence h
    obtain ⟨parts, rfl, hreads⟩ := decodeFence_eq_some_iff.mp hpolygons
    have hboth : List.Forall₂ (fun e a => Close e a ∧ Agree e a) parts.flatten items :=
      hclose.mp (fun e a hc ha => ⟨hc, ha⟩) hagree
    obtain ⟨parts', rfl, hparts⟩ := forall₂_flatten_left hboth
    obtain ⟨actual, hreads', hsame⟩ : ∃ actual, List.Forall₂ Reads parts' actual ∧
        List.Forall₂ SamePolygon polygons actual := by
      clear h hclose hagree hboth hpolygons
      induction hreads generalizing parts' with
      | nil =>
        obtain rfl := List.forall₂_nil_left_iff.mp hparts
        exact ⟨[], .nil, .nil⟩
      | cons hread _ ih =>
        obtain ⟨part', parts', hpart, hrest, rfl⟩ := List.forall₂_cons_left_iff.mp hparts
        obtain ⟨q, hq, hpq⟩ := reads_of_agree hpart hread
        obtain ⟨actual, hreads', hsame⟩ := ih parts' hrest
        exact ⟨q :: actual, .cons hq hreads', .cons hpq hsame⟩
    exact ⟨_, polygons, actual, h, hpolygons, decodeFence_eq_some_iff.mpr
      ⟨parts', rfl, hreads'⟩, hsame⟩

/-- The check passes the zone's own fence, and it passes no other exactly when items that are as
many and close also agree in their commands and their numbers of vertices. -/
theorem checkFenceMatch_sound_iff (zone : ZoneConfig) (items : List MissionItem) :
    FenceMatchSound zone items ↔ ∀ expected, zoneToFence zone = .ok expected →
      List.Forall₂ Close expected items → List.Forall₂ Agree expected items := by
  constructor
  · rintro ⟨hsound, -⟩ expected h hclose
    obtain ⟨detail, hpass⟩ := (checkFenceMatch_passes_iff h).mpr hclose
    exact (sameFence_iff h hclose).mp (hsound detail hpass)
  · intro hagree
    constructor
    · intro detail hpass
      obtain ⟨expected, h, -⟩ := bind_eq_ok.mp hpass
      have hclose := (checkFenceMatch_passes_iff h).mp ⟨detail, hpass⟩
      exact (sameFence_iff h hclose).mpr (hagree expected h hclose)
    · intro expected h
      apply (checkFenceMatch_passes_iff h).mpr
      rw [List.forall₂_same]
      intro item hitem
      obtain ⟨point, hpoint⟩ := zoneToFence_encoded h item hitem
      exact latlngToInt32_close hpoint

def lawnFence : FencePolygon :=
  ⟨mavCmdNavFencePolygonVertexInclusion, [(0, 0), (0, 30000000), (-30000000, 0)]⟩

def bedVertices : List (ℤ × ℤ) :=
  [(-10000000, 10000000), (-10000000, 20000000), (-20000000, 10000000)]

/-- The fence of the bed's zone, with the bed as a second lawn. -/
def mownBed : List MissionItem :=
  fenceItems 0 [lawnFence, ⟨mavCmdNavFencePolygonVertexInclusion, bedVertices⟩]

/-- A fence that lets the mower into the bed passes. -/
theorem mownBed_passes :
    checkFenceMatch bedZone mownBed = .ok (true, .matched 6 degreeTolerance) ∧
      ¬ SameFence bedZone mownBed := by
  have hexpected : zoneToFence bedZone =
      .ok (fenceItems 0 [lawnFence, ⟨mavCmdNavFencePolygonVertexExclusion, bedVertices⟩]) := by
    decide +kernel
  refine ⟨by decide +kernel, ?_⟩
  rintro ⟨expected, polygons, actual, h, hpolygons, hactual, hsame⟩
  obtain rfl := Except.ok.inj (hexpected.symm.trans h)
  rw [decodeFence_fenceItems] at hpolygons
  rw [mownBed, decodeFence_fenceItems] at hactual
  obtain rfl := Option.some.inj hpolygons
  obtain rfl := Option.some.inj hactual
  have hbed := (List.forall₂_iff_get.mp hsame).2 1 (by decide) (by decide)
  exact absurd hbed.1 (by decide)

end MowerRover.Probe
