import MowerRover.Cli.ZoneFile

/-!
# Zone ids

The loader of zone files and `zone activate` check a zone id with the same
pattern, `^[a-z][a-z0-9_-]{0,31}$`. Its last anchor also matches before a final
newline, so that an id that ends in one passes both checks and goes into the
path of the database.
-/

namespace MowerRover.Cli

open Effects Zone
open ZoneActivate (databaseOf)

/-- A lower-case letter, then at most 31 lower-case letters, digits, underscores and hyphens. -/
def IsZoneId (s : String) : Prop :=
  ∃ c cs, s.toList = c :: cs ∧ ('a' ≤ c ∧ c ≤ 'z') ∧ cs.length ≤ 31 ∧
    ∀ d ∈ cs, 'a' ≤ d ∧ d ≤ 'z' ∨ '0' ≤ d ∧ d ≤ '9' ∨ d = '_' ∨ d = '-'

/-- Some document with this zone id loads. -/
def LoaderAccepts (s : String) : Prop :=
  ∃ (shapely : Shapely) (path : String) (entries : List (Yaml × Yaml)) (zone : ZoneConfig),
    Yaml.lookup "zone_id" entries = some (.str s) ∧
      loadZoneConfig shapely path (.document (.dict entries)) = .ok zone

/-- Some activation of this zone ends well. -/
def ActivateAccepts (s : String) : Prop :=
  ∃ (slamMode : String) (answers : Oracle jetsonSignature),
    ((zoneActivate s slamMode).run answers.handler []).result = .ok ()

/-- Both checks let through the zone ids, which are one component of the path and of one line. -/
structure Checked (s : String) : Prop where
  loader : LoaderAccepts s ↔ IsZoneId s
  activate : ActivateAccepts s ↔ IsZoneId s
  path : LoaderAccepts s ∨ ActivateAccepts s →
    pathParts (databaseOf s) = ["/", "var", "lib", "mower", "zones", s, "rtabmap.db"] ∧
      '\n' ∉ s.toList ∧ '/' ∉ s.toList

theorem zoneIdBody_iff (s : String) : zoneIdBody s.toList = true ↔ IsZoneId s := by
  unfold IsZoneId
  cases s.toList with
  | nil => simp [zoneIdBody]
  | cons c cs =>
    simp only [zoneIdBody, zoneIdChar, Bool.and_eq_true, Bool.or_eq_true, decide_eq_true_eq,
      List.all_eq_true, or_assoc]
    constructor
    · rintro ⟨⟨hc, hcs⟩, hlen⟩
      exact ⟨c, cs, rfl, hc, hlen, hcs⟩
    · rintro ⟨_, _, heq, hc, hlen, hcs⟩
      obtain ⟨rfl, rfl⟩ := List.cons.inj heq
      exact ⟨⟨hc, hcs⟩, hlen⟩

theorem zoneIdMatches_iff (s : String) : zoneIdMatches s = true ↔
    IsZoneId s ∨ ∃ id, IsZoneId id ∧ s = id ++ "\n" := by
  rw [zoneIdMatches, Bool.or_eq_true, zoneIdBody_iff, Bool.and_eq_true, decide_eq_true_eq]
  apply or_congr_right
  constructor
  · rintro ⟨hlast, hbody⟩
    obtain ⟨cs, hcs⟩ := List.getLast?_eq_some_iff.mp hlast
    rw [hcs, List.dropLast_concat] at hbody
    refine ⟨String.ofList cs, ?_, ?_⟩
    · rw [← zoneIdBody_iff, String.toList_ofList]
      exact hbody
    · apply String.toList_inj.mp
      rw [hcs]
      simp
  · rintro ⟨id, hid, rfl⟩
    have hlist : (id ++ "\n").toList = id.toList ++ ['\n'] := by simp
    rw [hlist, List.dropLast_concat, zoneIdBody_iff]
    exact ⟨by simp, hid⟩

theorem IsZoneId.newline_not_mem {s : String} (h : IsZoneId s) : '\n' ∉ s.toList := by
  obtain ⟨c, cs, hs, hc, -, hcs⟩ := h
  rw [hs]
  intro hmem
  rcases List.mem_cons.mp hmem with rfl | hmem
  · exact absurd hc.1 (by decide)
  · exact absurd (hcs _ hmem) (by decide)

/-- A lawn with this zone id. -/
def idEntries (s : String) : List (Yaml × Yaml) :=
  let vertex (lat lon : ℤ) : Yaml := .list [.float (.fin lat), .float (.fin lon)]
  [(.str "schema", .str "mower-rover.zone.v1"), (.str "zone_id", .str s),
    (.str "name", .str "Lawn"), (.str "home", vertex 0 0),
    (.str "rally_point", .dict [(.str "lat", .float (.fin 0)), (.str "lon", .float (.fin 1))]),
    (.str "boundary", .list [vertex 0 0, vertex 0 1, vertex 1 1])]

def idZone (s : String) : ZoneConfig where
  schema := "mower-rover.zone.v1"
  zoneId := s
  home := ⟨.fin 0, .fin 0⟩
  rallyPoint := ⟨.fin 0, .fin 1⟩
  boundary := [⟨.fin 0, .fin 0⟩, ⟨.fin 0, .fin 1⟩, ⟨.fin 1, .fin 1⟩]

theorem coerce_idEntries (s : String) : coerce ⟨fun _ => .ok true⟩ (idEntries s) =
    if (!zoneIdMatches s) = true then
      throw (.zoneConfig "zone_id: must match ^[a-z][a-z0-9_-]\x7b0,31\x7d$")
    else pure (idZone s) := rfl

theorem loaderAccepts_iff (s : String) : LoaderAccepts s ↔ zoneIdMatches s = true := by
  constructor
  · rintro ⟨shapely, path, entries, zone, hid, hload⟩
    obtain ⟨_, hdocument, hcoerced⟩ := coerced_of_load hload
    obtain rfl := Yaml.dict.inj (YamlFile.document.inj hdocument)
    have hzone : s = zone.zoneId := by
      have hstr := hcoerced.zoneId
      rw [Yaml.getD_of_lookup hid] at hstr
      exact Except.ok.inj hstr
    rw [hzone]
    exact hcoerced.zoneIdMatches
  · intro h
    refine ⟨⟨fun _ => .ok true⟩, "zones/lawn.yaml", idEntries s, idZone s, rfl, ?_⟩
    change coerce _ _ = _
    rw [coerce_idEntries, if_neg (by simp [h])]
    rfl

/-- A Jetson on which nothing goes wrong. -/
def calm : Oracle jetsonSignature
  | _, .mkdir _ => .ok ()
  | _, .exists _ => true
  | _, .loadVslamConfig => .ok ⟨"", "mapping"⟩
  | _, .saveVslamConfig _ => .ok ()
  | _, .restart _ => .ok 0

theorem activateAccepts_iff (s : String) : ActivateAccepts s ↔ zoneIdMatches s = true := by
  constructor
  · rintro ⟨slamMode, answers, hrun⟩
    by_contra hno
    rw [zoneActivate, if_pos (by simpa using hno)] at hrun
    cases hrun
  · intro h
    refine ⟨"mapping", calm, ?_⟩
    rw [zoneActivate, if_neg (by simp [h])]
    rfl

/-- The checks do what they say except for zone ids with a newline behind them. -/
theorem zoneId_checked_iff (s : String) :
    Checked s ↔ ¬ ∃ id, IsZoneId id ∧ s = id ++ "\n" := by
  constructor
  · rintro hchecked ⟨id, hid, rfl⟩
    have haccepted : LoaderAccepts (id ++ "\n") :=
      (loaderAccepts_iff _).mpr ((zoneIdMatches_iff _).mpr (.inr ⟨id, hid, rfl⟩))
    exact (hchecked.path (.inl haccepted)).2.1 (by simp)
  · intro hnewline
    have hmatches : zoneIdMatches s = true ↔ IsZoneId s := by
      rw [zoneIdMatches_iff]
      exact or_iff_left hnewline
    constructor
    · rw [loaderAccepts_iff, hmatches]
    · rw [activateAccepts_iff, hmatches]
    · rw [loaderAccepts_iff, activateAccepts_iff, or_self]
      intro h
      have hid := hmatches.mp h
      refine ⟨pathParts_databaseOf h, hid.newline_not_mem, ?_⟩
      exact slash_not_mem_body ((zoneIdBody_iff s).mpr hid)

/-- A newline behind a zone id is let through, into the path too. -/
theorem newline_accepted : LoaderAccepts "ne\n" ∧ ActivateAccepts "ne\n" ∧ ¬ IsZoneId "ne\n" ∧
    databaseOf "ne\n" = "/var/lib/mower/zones/ne\n/rtabmap.db" := by
  have hmatches : zoneIdMatches "ne\n" = true := by decide
  refine ⟨(loaderAccepts_iff _).mpr hmatches, (activateAccepts_iff _).mpr hmatches, ?_, rfl⟩
  intro hid
  exact hid.newline_not_mem (by decide)

end MowerRover.Cli
