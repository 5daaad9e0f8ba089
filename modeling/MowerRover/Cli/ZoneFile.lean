import MowerRover.Cli.ZoneActivate
import MowerRover.Probe.VslamFile
import MowerRover.Words

/-!
# The file that a zone activation writes

Activation loads the configuration, points it at the database of the zone and
saves it. Two commands then tell the zone from the file: `zone status` loads it
and takes the zone from the path of the database, the probe looks for the path
at the top level of the document, where it never is.
-/

namespace MowerRover.Cli

open Effects Config Probe
open Zone (YamlFile zoneIdMatches zoneIdBody)

def vslamConfigPath : String := "/etc/mower/vslam.yaml"

/-- Two slashes at the front are a root of their own. -/
def pathRoot : List Char → List String
  | '/' :: '/' :: '/' :: _ => ["/"]
  | '/' :: '/' :: _ => ["//"]
  | '/' :: _ => ["/"]
  | _ => []

/-- `Path(path).parts`. -/
def pathParts (path : String) : List String :=
  pathRoot path.toList ++
    ((words (· = '/') path.toList).filter (· ≠ ['.'])).map String.ofList

/-- What follows the first `zones` of the path. -/
def zoneOfPath (path : String) : Option String :=
  let parts := pathParts path
  if 3 ≤ parts.length ∧ "zones" ∈ parts then parts[parts.idxOf "zones" + 1]? else none

/-- What the command asks the system: the size of the database, when there is
one, and the return code and output of `systemctl is-active`. -/
structure StatusAnswers where
  databaseSize : Except PyError (Option ℕ)
  isActive : Except PyError (ℤ × String)

/-- The report, with the size in bytes. -/
structure ZoneStatus where
  zoneId : Option String
  slamMode : String
  databasePath : String
  databaseSize : ℕ
  serviceActive : Bool
  deriving DecidableEq, Repr

def zoneStatus (py : PyText) (file : YamlFile) (system : StatusAnswers) :
    Except PyError ZoneStatus :=
  tryCatch (do
    let config ← loadVslamConfig py vslamConfigPath file
    let size ← system.databaseSize
    let (returncode, stdout) ← system.isActive
    pure { zoneId := zoneOfPath config.databasePath
           slamMode := config.slamMode
           databasePath := config.databasePath
           databaseSize := size.getD 0
           serviceActive := returncode = 0 ∧ pyStrip stdout.toList = "active".toList })
    fun _ => throw (.exit 1 "")

theorem slash_not_mem_body {cs : List Char} (h : zoneIdBody cs = true) : '/' ∉ cs := by
  cases cs with
  | nil => simp
  | cons c cs =>
    simp only [zoneIdBody, Bool.and_eq_true, decide_eq_true_eq, List.all_eq_true] at h
    obtain ⟨⟨⟨hlow, -⟩, hall⟩, -⟩ := h
    intro hmem
    rcases List.mem_cons.mp hmem with rfl | hmem
    · exact absurd hlow (by decide)
    · exact absurd (hall _ hmem) (by decide)

/-- A zone id is one component of a path. -/
theorem isWord_of_zoneIdMatches {zoneId : String} (h : zoneIdMatches zoneId = true) :
    IsWord (· = '/') zoneId.toList ∧ zoneId.toList ≠ ['.'] := by
  simp only [zoneIdMatches, Bool.or_eq_true, Bool.and_eq_true, decide_eq_true_eq] at h
  rcases h with h | ⟨hlast, h⟩
  · refine ⟨⟨?_, fun c hc => ?_⟩, ?_⟩
    · intro hnil
      simp [hnil, zoneIdBody] at h
    · have hslash := slash_not_mem_body h
      exact decide_eq_false fun heq => hslash (heq ▸ hc)
    · intro hdot
      rw [hdot] at h
      exact absurd h (by decide)
  · obtain ⟨cs, hcs⟩ := List.getLast?_eq_some_iff.mp hlast
    rw [hcs, List.dropLast_concat] at h
    rw [hcs]
    refine ⟨⟨by simp, fun c hc => ?_⟩, ?_⟩
    · rcases List.mem_append.mp hc with hc | hc
      · have hslash := slash_not_mem_body h
        exact decide_eq_false fun heq => hslash (heq ▸ hc)
      · obtain rfl := List.mem_singleton.mp hc
        rfl
    · intro hdot
      have := congrArg List.getLast? hdot
      simp at this

theorem pathParts_databaseOf {zoneId : String} (h : zoneIdMatches zoneId = true) :
    pathParts (ZoneActivate.databaseOf zoneId) =
      ["/", "var", "lib", "mower", "zones", zoneId, "rtabmap.db"] := by
  obtain ⟨hword, hdot⟩ := isWord_of_zoneIdMatches h
  have hpath : (ZoneActivate.databaseOf zoneId).toList = ['/'].intercalate [[], "var".toList,
      "lib".toList, "mower".toList, "zones".toList, zoneId.toList, "rtabmap.db".toList] := by
    have hname : ZoneActivate.databaseOf zoneId =
      "/var/lib/mower/zones/" ++ zoneId ++ "/rtabmap.db" := rfl
    simp [hname, List.intercalate_cons_cons]
  have hliteral : ∀ w ∈ ["var", "lib", "mower", "zones", "rtabmap.db"],
      words (· = '/') w.toList = [w.toList] := by
    decide
  simp only [List.forall_mem_cons] at hliteral
  obtain ⟨hvar, hlib, hmower, hzones, hdb, -⟩ := hliteral
  have hwords : words (· = '/') (ZoneActivate.databaseOf zoneId).toList = ["var".toList,
      "lib".toList, "mower".toList, "zones".toList, zoneId.toList, "rtabmap.db".toList] := by
    rw [hpath, words_intercalate (by rfl)]
    simp only [List.flatMap_cons, List.flatMap_nil, words_nil, words_of_isWord hword, hvar, hlib,
      hmower, hzones, hdb]
    rfl
  have hroot : (ZoneActivate.databaseOf zoneId).toList =
      '/' :: 'v' :: (ZoneActivate.databaseOf zoneId).toList.drop 2 := by
    simp [hpath, List.intercalate_cons_cons]
  have hfront : pathRoot (ZoneActivate.databaseOf zoneId).toList = ["/"] := by
    rw [hroot]
    rfl
  rw [pathParts, hfront, hwords]
  simp [hdot]

theorem zoneOfPath_databaseOf {zoneId : String} (h : zoneIdMatches zoneId = true) :
    zoneOfPath (ZoneActivate.databaseOf zoneId) = some zoneId := by
  rw [zoneOfPath, pathParts_databaseOf h]
  simp [List.idxOf, List.findIdx, List.findIdx.go]

/-- The file, the configuration that the command has loaded from it, and what has
been called. -/
structure Disk where
  file : YamlFile
  loaded : Option Config.VslamConfig
  past : List (Call jetsonSignature)

def Disk.call (d : Disk) (op : JetsonOp) (answer : jetsonSignature.Ans op) : Disk :=
  { d with past := ⟨op, answer⟩ :: d.past }

/-- The loaded configuration with the two settings that the command changes. -/
def pointAt (databasePath slamMode : String) (c : Config.VslamConfig) : Config.VslamConfig :=
  { c with databasePath := databasePath, slamMode := slamMode }

/-- Loading reads the file and saving writes it, unless the system refuses; of a
file that could not be written something `torn` is left. -/
def disk (py : PyText) (torn : YamlFile) (answers : Oracle jetsonSignature) :
    Handler jetsonSignature Disk Empty := fun op d =>
  match op, answers d.past op with
  | .loadVslamConfig, .ok _ =>
    let loaded := loadVslamConfig py vslamConfigPath d.file
    let answer : Except PyError VslamConfig := loaded.map fun c => ⟨c.databasePath, c.slamMode⟩
    (answer, { d.call .loadVslamConfig answer with loaded := loaded.toOption }, [])
  | .saveVslamConfig config, .ok () =>
    let written := d.loaded.map (pointAt config.databasePath config.slamMode)
    (.ok (), { d.call (.saveVslamConfig config) (.ok ()) with
      file := (written.map saveVslamConfig).getD d.file }, [])
  | .saveVslamConfig config, .error x =>
    (.error x, { d.call (.saveVslamConfig config) (.error x) with file := torn }, [])
  | op, answer => (answer, d.call op answer, [])

/-- The command has written the file. -/
def Saved (past : List (Call jetsonSignature)) : Prop :=
  ∃ config, ⟨.saveVslamConfig config, .ok ()⟩ ∈ past

/-- The file is the one before, loaded and pointed at the database of the zone. -/
def Activated (py : PyText) (before : YamlFile) (zoneId : String) (after : YamlFile) : Prop :=
  zoneIdMatches zoneId = true ∧ ∃ c, loadVslamConfig py vslamConfigPath before = .ok c ∧
    ∃ mode ∈ validSlamModes,
      after = saveVslamConfig (pointAt (ZoneActivate.databaseOf zoneId) mode c)

/-- The file is the one before, and nothing has been written. -/
def Untouched (before : YamlFile) (d : Disk) : Prop := d.file = before ∧ ¬ Saved d.past

section Run

open ZoneActivate

variable {py : PyText} {torn before : YamlFile} {answers : Oracle jetsonSignature} {zoneId : String}

theorem saved_cons {op : JetsonOp} (hop : ∀ config, op ≠ .saveVslamConfig config)
    {answer : jetsonSignature.Ans op} {past : List (Call jetsonSignature)} :
    Saved (⟨op, answer⟩ :: past) ↔ Saved past := by
  constructor
  · rintro ⟨config, hmem⟩
    rcases List.mem_cons.mp hmem with heq | hmem
    · exact absurd (congrArg Sigma.fst heq).symm (hop config)
    · exact ⟨config, hmem⟩
  · rintro ⟨config, hmem⟩
    exact ⟨config, List.mem_cons_of_mem _ hmem⟩

theorem onJetson_keeps {op : JetsonOp} (hload : op ≠ .loadVslamConfig)
    (hsave : ∀ config, op ≠ .saveVslamConfig config) {I : Disk → Prop}
    (hI : ∀ d answer, I d → I (d.call op answer)) :
    Preserves (disk py torn answers) I (onJetson op) := by
  apply Preserves.perform
  intro d hd
  cases op with
  | loadVslamConfig => exact absurd rfl hload
  | saveVslamConfig config => exact absurd rfl (hsave config)
  | _ => exact hI d _ hd

theorem untouched_preserves {op : JetsonOp} (hload : op ≠ .loadVslamConfig)
    (hsave : ∀ config, op ≠ .saveVslamConfig config) :
    Preserves (disk py torn answers) (Untouched before) (onJetson op) :=
  onJetson_keeps hload hsave fun _ _ hd => ⟨hd.1, fun h => hd.2 ((saved_cons hsave).mp h)⟩

theorem load_triple :
    Triple (disk py torn answers) (Untouched before) (onJetson .loadVslamConfig)
      (fun answer d => Untouched before d ∧ ∀ shown, answer = .ok shown →
        ∃ c, loadVslamConfig py vslamConfigPath before = .ok c ∧ d.loaded = some c)
      fun _ _ => False := by
  apply Triple.perform
  rintro d ⟨rfl, hsaved⟩
  have hpast : ∀ answer, ¬ Saved (⟨.loadVslamConfig, answer⟩ :: d.past) := fun answer h =>
    hsaved ((saved_cons (by simp)).mp h)
  unfold disk
  cases hanswer : answers d.past .loadVslamConfig with
  | error x => exact ⟨⟨rfl, hpast _⟩, by simp⟩
  | ok shown =>
    refine ⟨⟨rfl, hpast _⟩, fun shown' hshown => ?_⟩
    cases hload : loadVslamConfig py vslamConfigPath d.file with
    | error x => simp [hload, Except.map] at hshown
    | ok c => exact ⟨c, rfl, by simp [Except.toOption]⟩

theorem save_triple (hid : zoneIdMatches zoneId = true) {mode : String}
    (hmode : mode ∈ validSlamModes) {c : Config.VslamConfig}
    (hc : loadVslamConfig py vslamConfigPath before = .ok c) :
    Triple (disk py torn answers) (fun d => Untouched before d ∧ d.loaded = some c)
      (onJetson (.saveVslamConfig ⟨databaseOf zoneId, mode⟩))
      (fun answer d => (answer = .ok () → Saved d.past ∧ Activated py before zoneId d.file) ∧
        ∀ x, answer = .error x → ¬ Saved d.past)
      fun _ _ => False := by
  apply Triple.perform
  rintro d ⟨⟨rfl, hsaved⟩, hloaded⟩
  unfold disk
  cases hanswer : answers d.past (.saveVslamConfig ⟨databaseOf zoneId, mode⟩) with
  | error x =>
    refine ⟨by simp, fun _ _ h => ?_⟩
    obtain ⟨config, hmem⟩ := h
    rcases List.mem_cons.mp hmem with heq | hmem
    · cases heq
    · exact hsaved ⟨config, hmem⟩
  | ok u =>
    refine ⟨fun _ => ⟨⟨_, List.mem_cons_self⟩, hid, c, hc, mode, hmode, ?_⟩, by simp⟩
    simp [hloaded]

theorem restarts_preserve (services : List String) :
    Preserves (disk py torn answers)
      (fun d => Saved d.past ∧ Activated py before zoneId d.file)
      (restartServices services) := by
  induction services with
  | nil => exact Preserves.pure _
  | cons service services ih =>
    apply Preserves.bind
    · exact onJetson_keeps (by simp) (by simp) fun _ _ hd => ⟨(saved_cons (by simp)).mpr hd.1, hd.2⟩
    · intro answer
      apply (Preserves.ofExcept answer).bind
      intro returncode
      split_ifs
      · exact Preserves.throw _
      · exact ih

/-- What `updateConfig` does once the configuration is loaded. -/
theorem saveAndRestart_writes (hid : zoneIdMatches zoneId = true) {mode : String}
    (hmode : mode ∈ validSlamModes) {c : Config.VslamConfig}
    (hc : loadVslamConfig py vslamConfigPath before = .ok c) :
    Triple (disk py torn answers) (fun d => Untouched before d ∧ d.loaded = some c)
      (do
        Program.ofExcept (← onJetson (.saveVslamConfig ⟨databaseOf zoneId, mode⟩))
        restartServices ["mower-vslam.service", "mower-vslam-bridge.service"])
      (fun _ d => Saved d.past ∧ Activated py before zoneId d.file)
      fun _ d => Saved d.past → Activated py before zoneId d.file := by
  apply Triple.bind (save_triple hid hmode hc).neverFails
  intro saved
  cases saved with
  | error x => exact Triple.throw fun d hd h => absurd h (hd.2 x rfl)
  | ok u =>
    exact (restarts_preserve _).conseq (fun _ hd => hd.1 rfl) (fun _ _ hd => hd)
      fun _ _ hd _ => hd.2

theorem updateConfig_writes (hid : zoneIdMatches zoneId = true) {mode : String}
    (hmode : mode ∈ validSlamModes) :
    Triple (disk py torn answers) (Untouched before) (updateConfig (databaseOf zoneId) mode)
      (fun _ d => Saved d.past ∧ Activated py before zoneId d.file)
      fun _ d => Saved d.past → Activated py before zoneId d.file := by
  apply Triple.bind load_triple.neverFails
  intro answer
  cases answer with
  | error x => exact Triple.throw fun d hd h => absurd h hd.1.2
  | ok shown =>
    intro d hd
    obtain ⟨c, hc, hloaded⟩ := hd.2 shown rfl
    exact saveAndRestart_writes hid hmode hc d ⟨hd.1, hloaded⟩

theorem actualSlamMode_valid {slamMode dbPath : String}
    (hslam : slamMode ∈ ["auto", "mapping", "localization"]) :
    Triple (disk py torn answers) (Untouched before) (actualSlamMode slamMode dbPath)
      (fun mode d => mode ∈ validSlamModes ∧ Untouched before d)
      fun _ d => Saved d.past → Activated py before zoneId d.file := by
  unfold actualSlamMode
  split_ifs with hauto
  · apply Triple.bind ((untouched_preserves (by simp) (by simp)).onError fun _ d hd h =>
      absurd h hd.2)
    intro found
    cases found <;> exact Triple.pure fun _ hd => ⟨by decide, hd⟩
  · apply Triple.pure
    intro d hd
    simp only [List.mem_cons, hauto, false_or] at hslam
    exact ⟨by simpa [validSlamModes] using hslam, hd⟩

/-- Whatever the system answers, the file that an activation has written is the
one before, pointed at the zone; an activation that ends well has written it. -/
theorem zoneActivate_writes (before : YamlFile) (zoneId slamMode : String) :
    Triple (disk py torn answers) (Untouched before) (zoneActivate zoneId slamMode)
      (fun _ d => Saved d.past ∧ Activated py before zoneId d.file)
      fun _ d => Saved d.past → Activated py before zoneId d.file := by
  have hnone : ∀ (x : PyError) (d : Disk), Untouched before d → Saved d.past →
    Activated py before zoneId d.file := fun _ d hd h => absurd h hd.2
  unfold zoneActivate
  split_ifs with hid hslam
  · exact Triple.throw fun d hd => hnone (.exit 1 "") d hd
  · apply Triple.bind ((untouched_preserves (by simp) (by simp)).onError hnone)
    intro answer
    apply Triple.bind ((Preserves.ofExcept answer).onError hnone)
    intro u
    apply Triple.bind (actualSlamMode_valid (by simpa using hslam))
    intro mode
    apply Triple.assuming
    intro hmode
    exact Triple.tryCatch (updateConfig_writes (by simpa using hid) hmode) fun x =>
      Triple.throw fun _ hd => hd
  · exact Triple.throw fun d hd => hnone (.exit 1 "") d hd

variable {start : Disk} {slamMode : String}

theorem activated_of_saved (hstart : Untouched before start)
    (hsaved : Saved ((zoneActivate zoneId slamMode).run (disk py torn answers) start).state.past) :
    Activated py before zoneId
      ((zoneActivate zoneId slamMode).run (disk py torn answers) start).state.file := by
  have hwrites : Triple (disk py torn answers) (Untouched before) (zoneActivate zoneId slamMode)
      (fun _ d => Saved d.past → Activated py before zoneId d.file)
      fun _ d => Saved d.past → Activated py before zoneId d.file :=
    (zoneActivate_writes before zoneId slamMode).post fun _ _ hd _ => hd.2
  exact hwrites.state hstart hsaved

theorem saved_of_ok (hstart : Untouched before start)
    (hok : ((zoneActivate zoneId slamMode).run (disk py torn answers) start).result = .ok ()) :
    Saved ((zoneActivate zoneId slamMode).run (disk py torn answers) start).state.past :=
  ((zoneActivate_writes before zoneId slamMode start hstart).1 () hok).1

end Run

/-- The two commands agree that the file names the zone, and no other. -/
structure NamesZone (py : PyText) (file : YamlFile) (zoneId : String) : Prop where
  reported : ∀ system status, zoneStatus py file system = .ok status → status.zoneId = some zoneId
  matched : ∃ detail, checkVslamZoneMatch py file zoneId = .ok (true, detail)
  unmatched : ∀ other, zoneIdMatches other = true → other ≠ zoneId →
    ∃ detail, checkVslamZoneMatch py file other = .ok (false, detail)

section Readers

variable {py : PyText} {before after : YamlFile} {zoneId : String}

theorem pointAt_valid {c : Config.VslamConfig} (h : c.Valid) (databasePath : String) {mode : String}
    (hmode : mode ∈ validSlamModes) : (pointAt databasePath mode c).Valid :=
  { h with slamMode := hmode }

/-- `zone status` tells the zone that was activated. -/
theorem Activated.status (h : Activated py before zoneId after) {system : StatusAnswers}
    {status : ZoneStatus} (hstatus : zoneStatus py after system = .ok status) :
    status.zoneId = some zoneId := by
  obtain ⟨hid, c, hc, mode, hmode, rfl⟩ := h
  have hload : loadVslamConfig py vslamConfigPath
      (saveVslamConfig (pointAt (ZoneActivate.databaseOf zoneId) mode c)) = .ok _ :=
    loadVslamConfig_save (pointAt_valid (loadVslamConfig_valid hc) _ hmode)
  unfold zoneStatus at hstatus
  rw [hload] at hstatus
  cases hsize : system.databaseSize with
  | error x => rw [hsize] at hstatus; cases hstatus
  | ok size =>
    cases hactive : system.isActive with
    | error x => rw [hsize, hactive] at hstatus; cases hstatus
    | ok answer =>
      rw [hsize, hactive] at hstatus
      obtain rfl := Except.ok.inj hstatus
      exact zoneOfPath_databaseOf hid

theorem Activated.unmatched (h : Activated py before zoneId after) (other : String) :
    ∃ detail, checkVslamZoneMatch py after other = .ok (false, detail) := by
  obtain ⟨-, c, -, mode, -, rfl⟩ := h
  exact checkVslamZoneMatch_of_absent (by simp [Yaml.lookup]) other

variable {torn : YamlFile} {answers : Oracle jetsonSignature} {start : Disk} {slamMode : String}

/-- After no activation do the two readers agree on the zone. -/
theorem zoneActivate_never_matches (hstart : Untouched before start)
    (hok : ((zoneActivate zoneId slamMode).run (disk py torn answers) start).result = .ok ()) :
    ¬ NamesZone py ((zoneActivate zoneId slamMode).run (disk py torn answers) start).state.file
      zoneId := by
  have hactivated := activated_of_saved hstart (saved_of_ok hstart hok)
  intro hnames
  obtain ⟨detail, hmatched⟩ := hnames.matched
  obtain ⟨detail', hunmatched⟩ := hactivated.unmatched zoneId
  rw [hunmatched] at hmatched
  simp at hmatched

/-- The file before anything is called. -/
def Disk.holding (file : YamlFile) : Disk := ⟨file, none, []⟩

theorem untouched_holding (file : YamlFile) : Untouched file (.holding file) :=
  ⟨rfl, by rintro ⟨config, h⟩; cases h⟩

/-- Every call is answered well. -/
def willing : Oracle jetsonSignature := fun _ op =>
  match op with
  | .mkdir _ => .ok ()
  | .exists _ => true
  | .loadVslamConfig => .ok ⟨"", ""⟩
  | .saveVslamConfig _ => .ok ()
  | .restart _ => .ok 0

theorem zoneActivate_never_matches_south :
    ¬ NamesZone .plain
      ((zoneActivate "south" "mapping").run (disk .plain .missing willing)
        (.holding .missing)).state.file
        "south" :=
  zoneActivate_never_matches (untouched_holding _) rfl

/-- The file after the zone `north` was activated where there was none. -/
def northFile : YamlFile :=
  ((zoneActivate "north" "auto").run (disk .plain .missing willing) (.holding .missing)).state.file

theorem north_not_matched :
    ((zoneActivate "north" "auto").run (disk .plain .missing willing) (.holding .missing)).result =
      .ok () ∧
      checkVslamZoneMatch .plain northFile "north" =
        .ok (false, "VSLAM database_path '' does not contain 'zones/north/'") ∧
      ¬ NamesZone .plain northFile "north" := by
  have hcheck : checkVslamZoneMatch .plain northFile "north" =
      .ok (false, "VSLAM database_path '' does not contain 'zones/north/'") := by
    rfl
  refine ⟨rfl, hcheck, fun h => ?_⟩
  obtain ⟨detail, hmatched⟩ := h.matched
  rw [hcheck] at hmatched
  cases hmatched

end Readers

end MowerRover.Cli
