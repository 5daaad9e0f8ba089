import MowerRover.Config.Jetson

/-!
# `laptop.yaml`, as Python reads and writes it

The configuration of the laptop has one section, the endpoint of the Jetson; all
other keys are kept and written back. The path of the key is expanded when the
file is read, so a path that begins with a tilde does not come back as written.
-/

namespace MowerRover

open PosixPath

/-- A home directory is an absolute path. -/
structure Home where
  path : PosixPath
  absolute : path.root ≠ .relative

/-- The home directory of a user, when there is one; the user who runs the program has no name. -/
abbrev Homes := List Char → Option Home

/-- The path with another in the place of its first name. -/
def PosixPath.under (p home : PosixPath) : PosixPath where
  root := home.root
  names := home.names ++ p.names.tail
  isName name h := by
    rcases List.mem_append.mp h with h | h
    · exact home.isName name h
    · exact p.isName name (List.mem_of_mem_tail h)

/-- `path.expanduser()`. -/
def PosixPath.expanduser (homes : Homes) (p : PosixPath) : Except PyError PosixPath :=
  match p.root, p.names.head? with
  | .relative, some ('~' :: user) =>
    match homes user with
    | some home => pure (p.under home.path)
    | none => throw (.runtime "Could not determine home directory.")
  | _, _ => pure p

namespace Config

open Numeric
open Zone (YamlFile)

/-- The coordinates of the Jetson. -/
structure JetsonEndpoint where
  host : String
  user : String
  port : PyInt := .int 22
  keyPath : Option PosixPath := none
  deriving DecidableEq

structure LaptopConfig where
  jetson : Option JetsonEndpoint := none
  extra : Yaml.Mapping := .empty

def JetsonEndpoint.entries (e : JetsonEndpoint) : List (Yaml × Yaml) :=
  [(.str "host", .str e.host),
    (.str "user", .str e.user),
    (.str "port", e.port.toYaml),
    (.str "key_path", logDirToYaml e.keyPath)]

def LaptopConfig.toDict (c : LaptopConfig) : List (Yaml × Yaml) :=
  [(.str "jetson", match c.jetson with
    | some e => .dict e.entries
    | none => .null)]

variable (py : PyText) (homes : Homes)

def coerceKeyPath : Yaml → Except PyError (Option PosixPath)
  | .null => pure none
  | .str s => do pure (some (← (PosixPath.parse s.toList).expanduser homes))
  | raw => refuse s!"`jetson.key_path` must be a string, got {raw.typeName}"

/-- `{"host", "user"} - raw.keys()`, sorted. -/
def missingFields (raw : List (Yaml × Yaml)) : List String :=
  ["host", "user"].filter fun name => (Yaml.lookup name raw).isNone

def coerceEndpoint : Yaml → Except PyError JetsonEndpoint
  | .dict raw =>
    if missingFields raw ≠ [] then
      refuse (s!"`jetson` is missing required fields: " ++
        py.repr (.list ((missingFields raw).map .str)))
    else
      match Yaml.getD raw "host" .null, Yaml.getD raw "user" .null with
      | .str host, .str user => do
        let port ← checkInt py "`jetson.port`" "1..65535" (fun i => !(i ≤ 0 || 65535 < i))
          (Yaml.getD raw "port" (.int 22))
        let keyPath ← coerceKeyPath homes (Yaml.getD raw "key_path" .null)
        pure ⟨host, user, port, keyPath⟩
      | _, _ => refuse "`jetson.host` and `jetson.user` must be strings"
  | raw => refuse s!"`jetson` must be a mapping, got {raw.typeName}"

/-- `k not in known`, where one key is known. -/
def isOther (key : Yaml) : Bool := !Yaml.sameKey key (.str "jetson")

/-- `_coerce_endpoint(jetson_raw) if jetson_raw else None`. -/
def jetsonSection (jetsonRaw : Yaml) : Except PyError (Option JetsonEndpoint) :=
  if pyBool jetsonRaw then some <$> coerceEndpoint py homes jetsonRaw else pure none

def coerceLaptop : Yaml → Except PyError LaptopConfig
  | .dict raw => do
    let extra := Yaml.Mapping.ofEntries (raw.filter fun e => isOther e.1)
    let endpoint ← jetsonSection py homes (Yaml.getD raw "jetson" .null)
    pure ⟨endpoint, extra⟩
  | raw => refuse s!"top-level YAML must be a mapping, got {raw.typeName}"

def loadLaptopConfig (path : String) : YamlFile → Except PyError LaptopConfig
  | .missing => pure {}
  | .malformed message => refuse s!"failed to parse {path}: {message}"
  | .raised error => throw error.toPyError
  | .document raw => coerceLaptop py homes (if pyBool raw then raw else .dict [])

/-- What is written, before its keys are sorted. -/
def LaptopConfig.payload (c : LaptopConfig) : List (Yaml × Yaml) :=
  Yaml.update c.toDict c.extra.entries

/-- What the file may hold once it has been written, whatever the order of the keys. -/
def saveLaptopConfig (c : LaptopConfig) (saved : Yaml) : Prop := Yaml.Same (.dict c.payload) saved

/-- `a or b` on texts that may be missing. -/
def orText (a b : Option String) : Option String :=
  match a with
  | some s => if s = "" then b else a
  | none => b

/-- The options of a command that say where the Jetson is. -/
structure EndpointOptions where
  host : Option String := none
  user : Option String := none
  port : Option ℤ := none
  key : Option PosixPath := none

/-- Options before variables of the environment before the file. -/
def resolveEndpoint (env : String → Option String) (path : String) (opts : EndpointOptions)
    (file : YamlFile) : Except PyError JetsonEndpoint :=
  match loadLaptopConfig py homes path file with
  | .error (.value _) => throw (.exit 2 "")
  | .error x => throw x
  | .ok config => do
    let host := orText opts.host (orText (env "MOWER_JETSON_HOST") (config.jetson.map (·.host)))
    let user := orText opts.user (orText (env "MOWER_JETSON_USER") (config.jetson.map (·.user)))
    match host, user with
    | some host, some user => do
      let port ← match opts.port, orText (env "MOWER_JETSON_PORT") none with
        | some port, _ => pure (.int port)
        | none, some text => .int <$> pyInt (.str text)
        | none, none => pure ((config.jetson.map (·.port)).getD (.int 22))
      let key ← match opts.key, orText (env "MOWER_JETSON_KEY") none with
        | some key, _ => pure (some key)
        | none, some text => some <$> (PosixPath.parse text.toList).expanduser homes
        | none, none => pure (config.jetson.bind (·.keyPath))
      pure ⟨host, user, port, key⟩
    | _, _ => throw (.exit 2 "")

variable {py homes}

section Expanding

variable {p q : PosixPath}

theorem expanduser_of_absolute (h : p.root ≠ .relative) : p.expanduser homes = .ok p := by
  unfold PosixPath.expanduser
  split
  case h_1 hroot _ => exact absurd hroot h
  case h_2 => rfl

/-- What has been expanded stays as it is. -/
theorem expanduser_idem (h : p.expanduser homes = .ok q) : q.expanduser homes = .ok q := by
  have hp := h
  unfold PosixPath.expanduser at h
  split at h
  case h_1 user _ _ =>
    cases hhome : homes user with
    | none =>
      rw [hhome] at h
      cases h
    | some home =>
      rw [hhome] at h
      obtain rfl := Except.ok.inj h
      have habsolute : (p.under home.path).root ≠ .relative := home.absolute
      exact expanduser_of_absolute habsolute
  case h_2 =>
    obtain rfl := Except.ok.inj h
    exact hp

theorem expanduser_error {x : PyError} (h : p.expanduser homes = .error x) :
    x = .runtime "Could not determine home directory." := by
  unfold PosixPath.expanduser at h
  split at h
  case h_1 user _ _ =>
    cases hhome : homes user with
    | none =>
      rw [hhome] at h
      exact (Except.error.inj h).symm
    | some home =>
      rw [hhome] at h
      cases h
  case h_2 => cases h

/-- The endpoint as it is read back. -/
def JetsonEndpoint.expanded (homes : Homes) (e : JetsonEndpoint) : Except PyError JetsonEndpoint :=
  match e.keyPath with
  | none => pure e
  | some key => do pure { e with keyPath := some (← key.expanduser homes) }

theorem expanded_error {e : JetsonEndpoint} {x : PyError} (h : e.expanded homes = .error x) :
    x = .runtime "Could not determine home directory." := by
  unfold JetsonEndpoint.expanded at h
  split at h
  case h_1 => cases h
  case h_2 key _ =>
    cases hkey : key.expanduser homes with
    | error y =>
      rw [hkey] at h
      obtain rfl := Except.error.inj h
      exact expanduser_error hkey
    | ok p =>
      rw [hkey] at h
      cases h

end Expanding

section Saved

variable {c : LaptopConfig} {e : JetsonEndpoint} {raw : List (Yaml × Yaml)} {saved : Yaml}
  {path : String}

theorem isOther_iff {key : Yaml} :
    isOther key = true ↔ Yaml.sameKey (.str "jetson") key = false := by
  rw [isOther, Bool.not_eq_true', Yaml.sameKey_comm]

/-- The other keys of a configuration are no section of the Jetson. -/
def LaptopConfig.KeepsOthers (c : LaptopConfig) : Prop :=
  ∀ key ∈ Yaml.keys c.extra.entries, isOther key = true

/-- What is loaded of a file: nothing, or a section and the other keys. -/
theorem loadLaptopConfig_cases {file : YamlFile} (h : loadLaptopConfig py homes path file = .ok c) :
    c = {} ∨ ∃ root endpoint,
      jetsonSection py homes (Yaml.getD root "jetson" .null) = .ok endpoint ∧
      c = ⟨endpoint, .ofEntries (root.filter fun entry => isOther entry.1)⟩ := by
  cases file with
  | missing => exact .inl (Except.ok.inj h).symm
  | malformed message => cases h
  | raised error => cases h
  | document raw =>
    have hroot : coerceLaptop py homes (if pyBool raw then raw else .dict []) = .ok c := h
    cases hdoc : (if pyBool raw then raw else .dict []) with
    | dict root =>
      rw [hdoc] at hroot
      simp only [coerceLaptop, bind_eq_ok] at hroot
      obtain ⟨endpoint, hendpoint, hroot⟩ := hroot
      exact .inr ⟨root, endpoint, hendpoint, (Except.ok.inj hroot).symm⟩
    | _ =>
      rw [hdoc] at hroot
      cases hroot

theorem loadLaptopConfig_keepsOthers {file : YamlFile}
    (h : loadLaptopConfig py homes path file = .ok c) : c.KeepsOthers := by
  intro key hkey
  obtain rfl | ⟨root, endpoint, -, rfl⟩ := loadLaptopConfig_cases h
  · cases hkey
  · obtain hkey | hkey := Yaml.mem_keys_update hkey
    · cases hkey
    · obtain ⟨entry, hentry, rfl⟩ := List.mem_map.mp hkey
      exact (List.mem_filter.mp hentry).2

theorem distinct_entries (e : JetsonEndpoint) : Yaml.Distinct e.entries := by
  simp [Yaml.Distinct, JetsonEndpoint.entries, Yaml.sameKey, Yaml.hash]

theorem coerceKeyPath_logDirToYaml (key : Option PosixPath) :
    coerceKeyPath homes (logDirToYaml key) = (match key with
      | none => pure none
      | some key => some <$> key.expanduser homes) := by
  cases key with
  | none => rfl
  | some key =>
    simp only [logDirToYaml, coerceKeyPath, String.toList_ofList, PosixPath.parse_text]
    rfl

/-- The section as it was written, in any order of its keys. -/
theorem coerceEndpoint_entries (hport : 0 < e.port.toInt ∧ e.port.toInt ≤ 65535)
    (h : Yaml.Reordered e.entries raw) :
    coerceEndpoint py homes (.dict raw) = e.expanded homes := by
  have found : ∀ (key : String) {v : Yaml}, Yaml.Fixed v → Yaml.lookup key e.entries = some v →
      Yaml.lookup key raw = some v := fun _ _ hv hfound =>
    h.lookup_fixed (distinct_entries e) hv hfound
  have hhost := found "host" (Yaml.fixed_str e.host) rfl
  have huser := found "user" (Yaml.fixed_str e.user) rfl
  have hport' := found "port" (fixed_toYaml e.port) rfl
  have hkey := found "key_path" (fixed_logDirToYaml e.keyPath) rfl
  have hmissing : missingFields raw = [] := by
    simp [missingFields, hhost, huser]
  have hchecked : checkInt py "`jetson.port`" "1..65535" (fun i => !(i ≤ 0 || 65535 < i))
      e.port.toYaml = .ok e.port := by
    rw [checkInt_eq_ok_iff]
    exact ⟨rfl, by simpa using hport⟩
  rw [coerceEndpoint, hmissing, Yaml.getD_of_lookup hhost, Yaml.getD_of_lookup huser,
    Yaml.getD_of_lookup hport', Yaml.getD_of_lookup hkey, hchecked, coerceKeyPath_logDirToYaml]
  obtain ⟨host, user, port, key⟩ := e
  cases key with
  | none => rfl
  | some key =>
    simp only [JetsonEndpoint.expanded]
    cases key.expanduser homes <;> rfl

theorem pyBool_entries (h : Yaml.Reordered e.entries raw) : pyBool (.dict raw) = true := by
  have hlength := h.perm_keys.length_eq
  cases raw with
  | nil => simp [Yaml.keys, JetsonEndpoint.entries] at hlength
  | cons first rest => rfl

/-- The endpoint comes back with its key expanded, and the other keys come back. -/
theorem loadLaptopConfig_save (path : String) (hjetson : c.jetson = some e)
    (hport : 0 < e.port.toInt ∧ e.port.toInt ≤ 65535) (hothers : c.KeepsOthers)
    (hsaved : saveLaptopConfig c saved) :
    ∃ extra : Yaml.Mapping, Yaml.Same (.dict c.extra.entries) (.dict extra.entries) ∧
      loadLaptopConfig py homes path (.document saved) =
        (e.expanded homes).map fun e' => ⟨some e', extra⟩ := by
  have hnew : ∀ key ∈ Yaml.keys c.toDict, ∀ key' ∈ Yaml.keys c.extra.entries,
      Yaml.sameKey key key' = false := by
    intro key hkey key' hkey'
    obtain rfl : key = .str "jetson" := by simpa [LaptopConfig.toDict] using hkey
    exact isOther_iff.mp (hothers key' hkey')
  have hpayload : c.payload = (.str "jetson", .dict e.entries) :: c.extra.entries := by
    rw [LaptopConfig.payload, Yaml.update_new c.extra.distinct hnew, LaptopConfig.toDict, hjetson]
    rfl
  rw [saveLaptopConfig, hpayload] at hsaved
  obtain ⟨fs, rfl, hfs⟩ := hsaved.of_dict
  have hdistinct : Yaml.Distinct ((.str "jetson", .dict e.entries) :: c.extra.entries) :=
    List.pairwise_cons.mpr ⟨fun key hkey => isOther_iff.mp (hothers key hkey), c.extra.distinct⟩
  obtain ⟨section_, hsection, hsame⟩ := hfs.lookup hdistinct
    (show Yaml.lookup "jetson" _ = some (.dict e.entries) from rfl)
  obtain ⟨raw, rfl, hraw⟩ := hsame.of_dict
  have hrest := hfs.filter isOther
  have hself : c.extra.entries.filter (fun entry => isOther entry.1) = c.extra.entries := by
    rw [List.filter_eq_self]
    intro entry hentry
    exact hothers entry.1 (List.mem_map_of_mem hentry)
  have hfirst : isOther (.str "jetson") = false := rfl
  rw [List.filter_cons_of_neg (by simp [hfirst]), hself] at hrest
  refine ⟨.ofEntries (fs.filter fun entry => isOther entry.1), ?_, ?_⟩
  · rw [Yaml.Mapping.ofEntries_of_distinct (hrest.distinct c.extra.distinct)]
    obtain ⟨mid, hperm, hentries⟩ := hrest
    exact .dict hperm hentries
  · rw [loadLaptopConfig, orEmpty_dict, coerceLaptop, Yaml.getD_of_lookup hsection, jetsonSection,
      if_pos (pyBool_entries hraw), coerceEndpoint_entries hport hraw]
    cases e.expanded homes <;> rfl

/-- None of the variables is set that say where the Jetson is. -/
def Unset (env : String → Option String) : Prop :=
  ∀ name ∈ ["MOWER_JETSON_HOST", "MOWER_JETSON_USER", "MOWER_JETSON_PORT", "MOWER_JETSON_KEY"],
    orText (env name) none = none

theorem orText_of_unset {a : Option String} (h : orText a none = none) (b : Option String) :
    orText a b = b := by
  cases a with
  | none => rfl
  | some s =>
    simp only [orText] at h ⊢
    split_ifs at h with hs
    rw [if_pos hs]

theorem resolveEndpoint_eq {env : String → Option String} {file : YamlFile} (henv : Unset env)
    (hload : loadLaptopConfig py homes path file = .ok c) (hjetson : c.jetson = some e) :
    resolveEndpoint py homes env path {} file = .ok e := by
  simp only [Unset, List.forall_mem_cons] at henv
  obtain ⟨hhost, huser, hport, hkey, -⟩ := henv
  simp only [resolveEndpoint, hload, orText_of_unset hhost, orText_of_unset huser, hport, hkey,
    hjetson]
  rfl

theorem resolveEndpoint_save {env : String → Option String} (henv : Unset env)
    (hjetson : c.jetson = some e) (hport : 0 < e.port.toInt ∧ e.port.toInt ≤ 65535)
    (hothers : c.KeepsOthers) (hsaved : saveLaptopConfig c saved) :
    resolveEndpoint py homes env path {} (.document saved) = e.expanded homes := by
  obtain ⟨extra, -, hload⟩ := loadLaptopConfig_save path hjetson hport hothers hsaved
  cases hexpanded : e.expanded homes with
  | error x =>
    obtain rfl := expanded_error hexpanded
    rw [hexpanded] at hload
    rw [resolveEndpoint, hload]
    rfl
  | ok e' =>
    rw [hexpanded] at hload
    exact resolveEndpoint_eq henv hload rfl

theorem coerceKeyPath_expanded {v : Yaml} {key : PosixPath}
    (h : coerceKeyPath homes v = .ok (some key)) : key.expanduser homes = .ok key := by
  cases v with
  | str s =>
    simp only [coerceKeyPath, bind_eq_ok] at h
    obtain ⟨key', hkey', h⟩ := h
    obtain rfl : key' = key := by simpa using h
    exact expanduser_idem hkey'
  | _ => simp [coerceKeyPath, refuse] at h

theorem coerceEndpoint_expanded {v : Yaml} {key : PosixPath}
    (h : coerceEndpoint py homes v = .ok e) (hkey : e.keyPath = some key) :
    key.expanduser homes = .ok key := by
  cases v with
  | dict raw =>
    simp only [coerceEndpoint] at h
    split_ifs at h
    · cases h
    · split at h
      case h_1 =>
        simp only [bind_eq_ok] at h
        obtain ⟨port, -, keyPath, hkeyPath, h⟩ := h
        obtain rfl := Except.ok.inj h
        obtain rfl : keyPath = some key := hkey
        exact coerceKeyPath_expanded hkeyPath
      case h_2 => cases h
  | _ => cases h

theorem loadLaptopConfig_expanded {file : YamlFile} {key : PosixPath}
    (h : loadLaptopConfig py homes path file = .ok c) (hjetson : c.jetson = some e)
    (hkey : e.keyPath = some key) : key.expanduser homes = .ok key := by
  obtain rfl | ⟨root, endpoint, hendpoint, rfl⟩ := loadLaptopConfig_cases h
  · cases hjetson
  · obtain rfl : endpoint = some e := hjetson
    unfold jetsonSection at hendpoint
    split_ifs at hendpoint
    · obtain ⟨e', hcoerce, he'⟩ := map_eq_ok.mp hendpoint
      obtain rfl := Option.some.inj he'
      exact coerceEndpoint_expanded hcoerce hkey
    · cases hendpoint

end Saved

end Config

end MowerRover
