import MowerRover.Blocks
import MowerRover.Json.FixedPoint
import MowerRover.Words
import MowerRover.Zone.Geojson

/-!
# The waypoints file

`plan-mission` writes home and the waypoints of a zone in the format of
QGroundControl: a header, then a line for each with its number and twelve
columns. What is read back are the places in order, to half a unit of the
eighth decimal.
-/

namespace MowerRover.Zone

open Json Numeric

/-- `format(x, ".8f")` -/
def fixedText : PyFloat → List Char
  | .fin q => (fixedNumeral 8 q).text
  | .inf negative => (if negative then "-inf" else "inf").toList
  | .nan => "nan".toList

def waypointLine (i : ℕ) (p : LatLon) : List Char :=
  ['\t'].intercalate [(intNumeral i).text, [if i = 0 then '1' else '0'], ['0'], "16".toList, ['0'],
    ['0'], ['0'], ['0'], fixedText p.lat, fixedText p.lon, ['0'], ['1']]

def headerLine : List Char := "QGC WPL 110".toList

/-- The text of the file: home has the number zero. -/
def waypointFile (home : LatLon) (waypoints : List LatLon) : List Char :=
  (headerLine :: (home :: waypoints).zipIdx.map fun (p, i) => waypointLine i p).flatMap
    (· ++ ['\n'])

/-- What `plan-mission` writes, and the name of the file. -/
def planMission {ε : Type} (loaded : Except PyError ZoneConfig)
    (generate : ZoneConfig → Except ε (List LatLon)) : Except PyError (String × List Char) :=
  match loaded with
  | .error _ => throw (.exit 1 "")
  | .ok zone =>
    match generate zone with
    | .error _ | .ok [] => throw (.exit 1 "")
    | .ok waypoints => pure (zone.zoneId ++ ".waypoints", waypointFile zone.home waypoints)

/-- A line of the format. -/
structure Row where
  number : ℚ
  current : ℚ
  frame : ℚ
  command : ℚ
  params : List ℚ
  lat : ℚ
  lon : ℚ
  alt : ℚ
  autocontinue : ℚ
  deriving DecidableEq, Repr

def readRow (line : List Char) : Option Row := do
  match ← (words (· = '\t') line).mapM readNumber with
  | [number, current, frame, command, p1, p2, p3, p4, lat, lon, alt, autocontinue] =>
    some ⟨number, current, frame, command, [p1, p2, p3, p4], lat, lon, alt, autocontinue⟩
  | _ => none

def readWaypointFile (text : List Char) : Option (List Row) :=
  match words (· = '\n') text with
  | header :: lines => if header = headerLine then lines.mapM readRow else none
  | [] => none

/-- The row says to go to the place, which it has to half a unit of the eighth decimal. -/
structure Row.Describes (row : Row) (i : ℕ) (p : LatLon) : Prop where
  number : row.number = i
  current : row.current = if i = 0 then 1 else 0
  command : row.command = 16
  rest : row.frame = 0 ∧ row.params = [0, 0, 0, 0] ∧ row.alt = 0 ∧ row.autocontinue = 1
  place : ∃ lat lon, p = ⟨.fin lat, .fin lon⟩ ∧ |row.lat - lat| ≤ 1 / (2 * 10 ^ 8) ∧
    |row.lon - lon| ≤ 1 / (2 * 10 ^ 8)

/-- Neither a tab nor a line break, and not empty. -/
def IsColumn (cs : List Char) : Prop := cs ≠ [] ∧ ∀ c ∈ cs, c ≠ '\t' ∧ c ≠ '\n'

theorem digitChar_not_blank {d : ℕ} (hd : d < 10) : digitChar d ≠ '\t' ∧ digitChar d ≠ '\n' := by
  interval_cases d <;> decide

theorem isColumn_numeral {n : Numeral} (hn : n.WellFormed) (hexp : n.exp = 0) : IsColumn
    n.text := by
  obtain ⟨c, cs, htext, -⟩ := hn.text_start
  refine ⟨by simp [htext], fun c hc => ?_⟩
  have hdigits : ∀ ds : List ℕ, (∀ d ∈ ds, d < 10) → c ∈ ds.map digitChar →
    c ≠ '\t' ∧ c ≠ '\n' := by
    intro ds hds hmem
    obtain ⟨d, hd, rfl⟩ := List.mem_map.mp hmem
    exact digitChar_not_blank (hds d hd)
  rw [Numeral.text, hexp, if_pos rfl, List.append_nil, List.mem_append, List.mem_append] at hc
  rcases hc with (hc | hc) | hc
  · split_ifs at hc
    · obtain rfl := List.mem_singleton.mp hc
      decide
    · cases hc
  · exact hdigits _ hn.int_digits hc
  · split_ifs at hc
    · cases hc
    · rcases List.mem_cons.mp hc with rfl | hc
      · decide
      · exact hdigits _ hn.frac_digits hc

theorem isColumn_fixedText (x : PyFloat) : IsColumn (fixedText x) := by
  cases x with
  | fin q => exact isColumn_numeral (fixedNumeral_wellFormed 8 q) rfl
  | inf negative => cases negative <;> exact ⟨by decide, by simp [fixedText]⟩
  | nan => exact ⟨by decide, by simp [fixedText]⟩

theorem readNumber_fixedText (x : PyFloat) :
    readNumber (fixedText x) = match x with | .fin q => some (roundedTo 8 q) | _ => none := by
  cases x with
  | fin q => exact readNumber_fixed 8 q
  | inf negative => cases negative <;> decide
  | nan => decide

theorem mem_intercalate {sep c : Char} {columns : List (List Char)}
    (h : c ∈ [sep].intercalate columns) : c = sep ∨ ∃ column ∈ columns, c ∈ column := by
  induction columns with
  | nil => simp at h
  | cons column columns ih =>
    cases columns with
    | nil => exact .inr ⟨column, List.mem_cons_self, by simpa using h⟩
    | cons next columns =>
      rw [List.intercalate_cons_cons, List.append_assoc, List.mem_append, List.singleton_append,
        List.mem_cons] at h
      rcases h with h | h | h
      · exact .inr ⟨column, List.mem_cons_self, h⟩
      · exact .inl h
      · obtain hsep | ⟨other, hother, hc⟩ := ih h
        · exact .inl hsep
        · exact .inr ⟨other, List.mem_cons_of_mem _ hother, hc⟩

theorem words_lines {lines : List (List Char)} (h : ∀ line ∈ lines, IsWord (· = '\n') line) :
    words (· = '\n') (lines.flatMap (· ++ ['\n'])) = lines := by
  induction lines with
  | nil => rfl
  | cons line lines ih =>
    rw [List.forall_mem_cons] at h
    rw [List.flatMap_cons, List.append_assoc, List.singleton_append,
      words_append_cons (by decide), words_of_isWord h.1, ih h.2, List.singleton_append]

def columns (i : ℕ) (p : LatLon) : List (List Char) :=
  [(intNumeral i).text, [if i = 0 then '1' else '0'], ['0'], "16".toList, ['0'], ['0'],
    ['0'], ['0'],
    fixedText p.lat, fixedText p.lon, ['0'], ['1']]

theorem isColumn_of_mem {i : ℕ} {p : LatLon} : ∀ column ∈ columns i p, IsColumn column := by
  have hflag : IsColumn [if i = 0 then '1' else '0'] := by
    refine ⟨by simp, fun c hc => ?_⟩
    obtain rfl := List.mem_singleton.mp hc
    split_ifs <;> decide
  have hzero : IsColumn ['0'] := ⟨by simp, by simp⟩
  have hone : IsColumn ['1'] := ⟨by simp, by simp⟩
  have hcommand : IsColumn ['1', '6'] := ⟨by simp, by simp⟩
  have hnumber : IsColumn (intNumeral i).text := isColumn_numeral (intNumeral_wellFormed i) rfl
  simp [columns, hflag, hzero, hone, hcommand, hnumber, isColumn_fixedText]

theorem words_waypointLine (i : ℕ) (p : LatLon) :
    words (· = '\t') (waypointLine i p) = columns i p := by
  refine (words_intercalate_eq_iff (by decide)).mpr fun column hcolumn => ?_
  obtain ⟨hne, hblank⟩ := isColumn_of_mem column hcolumn
  exact ⟨hne, fun c hc => by simpa using (hblank c hc).1⟩

theorem isWord_waypointLine (i : ℕ) (p : LatLon) : IsWord (· = '\n') (waypointLine i p) := by
  constructor
  · intro hnil
    have hcolumns := words_waypointLine i p
    rw [hnil, words_nil] at hcolumns
    cases hcolumns
  · intro c hc
    obtain rfl | ⟨column, hcolumn, hmem⟩ := mem_intercalate hc
    · rfl
    · simpa using ((isColumn_of_mem column hcolumn).2 c hmem).2

theorem readRow_waypointLine (i : ℕ) (p : LatLon) :
    readRow (waypointLine i p) = match p with
      | ⟨.fin lat, .fin lon⟩ => some ⟨i, if i = 0 then 1 else 0, 0, 16, [0, 0, 0, 0],
          roundedTo 8 lat, roundedTo 8 lon, 0, 1⟩
      | _ => none := by
  have hflag : readNumber [if i = 0 then '1' else '0'] = some (if i = 0 then 1 else 0) := by
    split_ifs <;> decide +kernel
  have hzero : readNumber ['0'] = some 0 := by decide +kernel
  have hone : readNumber ['1'] = some 1 := by decide +kernel
  have hcommand : readNumber "16".toList = some 16 := by decide +kernel
  have hnumber : readNumber (intNumeral i).text = some i := by exact_mod_cast readNumber_int i
  rw [readRow, words_waypointLine]
  simp only [columns, List.mapM_cons, List.mapM_nil, hflag, hzero, hone, hcommand, hnumber,
    readNumber_fixedText]
  obtain ⟨lat, lon⟩ := p
  cases lat <;> cases lon <;> rfl

theorem readRow_isSome (i : ℕ) (p : LatLon) :
    (readRow (waypointLine i p)).isSome = true ↔
      p.lat.isFinite = true ∧ p.lon.isFinite = true := by
  rw [readRow_waypointLine]
  obtain ⟨lat, lon⟩ := p
  cases lat <;> cases lon <;> simp [PyFloat.isFinite]

theorem describes_of_readRow {i : ℕ} {p : LatLon} {row : Row}
    (h : readRow (waypointLine i p) = some row) : row.Describes i p := by
  rw [readRow_waypointLine] at h
  obtain ⟨lat, lon⟩ := p
  cases lat with
  | fin lat =>
    cases lon with
    | fin lon =>
      obtain rfl := Option.some.inj h
      exact ⟨rfl, rfl, rfl, ⟨rfl, rfl, rfl, rfl⟩, lat, lon, rfl, roundedTo_error 8 lat,
        roundedTo_error 8 lon⟩
    | _ => cases h
  | _ => cases h

theorem readWaypointFile_eq (home : LatLon) (waypoints : List LatLon) :
    readWaypointFile (waypointFile home waypoints) =
      (home :: waypoints).zipIdx.mapM fun pi => readRow (waypointLine pi.2 pi.1) := by
  have hlines : ∀ line ∈ headerLine :: (home :: waypoints).zipIdx.map
      (fun (p, i) => waypointLine i p), IsWord (· = '\n') line := by
    rw [List.forall_mem_cons, List.forall_mem_map]
    have hheader : headerLine.all (· != '\n') = true := by decide
    refine ⟨⟨by decide, fun c hc => ?_⟩, fun pi _ => isWord_waypointLine pi.2 pi.1⟩
    simpa using List.all_eq_true.mp hheader c hc
  rw [readWaypointFile, waypointFile, words_lines hlines]
  simp only [if_true, List.mapM_map]
  rfl

theorem mapM_isSome_iff {α β : Type} {f : α → Option β} {xs : List α} :
    (xs.mapM f).isSome = true ↔ ∀ x ∈ xs, (f x).isSome = true := by
  induction xs with
  | nil => simp
  | cons x xs ih =>
    rw [List.forall_mem_cons, ← ih, List.mapM_cons]
    cases f x <;> cases xs.mapM f <;> simp

/-- The file that was written for a zone and its waypoints. -/
theorem planMission_eq_ok {ε : Type} {loaded : Except PyError ZoneConfig}
    {generate : ZoneConfig → Except ε (List LatLon)} {name : String} {text : List Char}
    (h : planMission loaded generate = .ok (name, text)) :
    ∃ zone waypoints, loaded = .ok zone ∧ generate zone = .ok waypoints ∧ waypoints ≠ [] ∧
      name = zone.zoneId ++ ".waypoints" ∧ text = waypointFile zone.home waypoints := by
  cases loaded with
  | error e => cases h
  | ok zone =>
    cases hgenerate : generate zone with
    | error e => simp [planMission, hgenerate] at h
    | ok waypoints =>
      cases waypoints with
      | nil => simp [planMission, hgenerate] at h
      | cons p waypoints =>
        simp only [planMission, hgenerate, pure_eq_ok, Except.ok.injEq, Prod.mk.injEq] at h
        exact ⟨zone, p :: waypoints, rfl, hgenerate, by simp, h.1.symm, h.2.symm⟩

/-- The file of a zone is read back exactly when home and all waypoints are numbers, and then has
home and the waypoints, numbered in order, to half a unit of the eighth decimal. -/
theorem planMission_readBack {ε : Type} {loaded : Except PyError ZoneConfig}
    {generate : ZoneConfig → Except ε (List LatLon)} {name : String} {text : List Char}
    (h : planMission loaded generate = .ok (name, text)) :
    ∃ zone waypoints, loaded = .ok zone ∧ generate zone = .ok waypoints ∧ waypoints ≠ [] ∧
      ((readWaypointFile text).isSome = true ↔
        ∀ p ∈ zone.home :: waypoints, p.lat.isFinite = true ∧ p.lon.isFinite = true) ∧
      ∀ rows, readWaypointFile text = some rows →
        List.Forall₂ (fun pi row => row.Describes pi.2 pi.1) (zone.home :: waypoints).zipIdx
          rows := by
  obtain ⟨zone, waypoints, hloaded, hgenerate, hne, -, rfl⟩ := planMission_eq_ok h
  refine ⟨zone, waypoints, hloaded, hgenerate, hne, ?_, fun rows hrows => ?_⟩
  · rw [readWaypointFile_eq, mapM_isSome_iff]
    constructor
    · intro hall p hp
      obtain ⟨i, hi, rfl⟩ := List.getElem_of_mem hp
      have hnumbered : ((zone.home :: waypoints)[i], i) ∈ (zone.home :: waypoints).zipIdx :=
        List.mk_mem_zipIdx_iff_getElem?.mpr (List.getElem?_eq_getElem hi)
      have hread := hall _ hnumbered
      exact (readRow_isSome i _).mp hread
    · intro hall pi hpi
      exact (readRow_isSome pi.2 pi.1).mpr (hall _ (List.fst_mem_of_mem_zipIdx hpi))
  · rw [readWaypointFile_eq, mapM_eq_some_iff] at hrows
    exact hrows.imp fun _ _ hrow => describes_of_readRow hrow

theorem planMission_readBack_lawn :
    ∃ text, planMission (.ok (lawnZone eastward)) (fun zone => (.ok zone.boundary :
        Except PyError (List LatLon))) = .ok ("lawn.waypoints", text) ∧
      ∃ zone waypoints, (.ok (lawnZone eastward) : Except PyError ZoneConfig) = .ok zone ∧
        (.ok zone.boundary : Except PyError (List LatLon)) = .ok waypoints ∧ waypoints ≠ [] ∧
        ((readWaypointFile text).isSome = true ↔
          ∀ p ∈ zone.home :: waypoints, p.lat.isFinite = true ∧ p.lon.isFinite = true) ∧
        ∀ rows, readWaypointFile text = some rows →
          List.Forall₂ (fun pi row => row.Describes pi.2 pi.1) (zone.home :: waypoints).zipIdx
            rows := by
  have hplan : planMission (.ok (lawnZone eastward)) (fun zone => (.ok zone.boundary :
      Except PyError (List LatLon))) =
      .ok ("lawn.waypoints", waypointFile (corner 42 (-71)) eastward) := rfl
  exact ⟨_, hplan, planMission_readBack hplan⟩

end MowerRover.Zone
