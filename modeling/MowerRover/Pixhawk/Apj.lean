import MowerRover.Errors
import MowerRover.Json.Loads

/-!
# Firmware images

`validate_apj`, the download of an image into the cache, and the flash through
the vendored uploader, which reports what it has written in blocks of 1024. An
image is known by its JSON text; whatever the server sends, only an image that
passed its checks is handed on, and such an image is flashed whole.
-/

namespace MowerRover.Pixhawk

open Numeric Json

/-- What the program takes from the library: the encoding of texts in the locale, the text of a
`JSONDecodeError`, and `str` of what was read. -/
structure TextLayer where
  decode : List UInt8 → Except String (List Char)
  jsonError : List Char → String
  str : Value → String

def kindName : Value → String
  | .null => "NoneType"
  | .bool _ => "bool"
  | .int _ => "int"
  | .float _ => "float"
  | .str _ => "str"
  | .list _ => "list"
  | .dict _ => "dict"

def isStr (text : String) : Value → Bool
  | .str s => s = text
  | _ => false

/-- The truth values are integers too. -/
def intOf : Value → Option ℤ
  | .int n => some n
  | .bool b => some (if b then 1 else 0)
  | _ => none

/-- `field in value`: a key of a dictionary, an item of a list, a part of a text. -/
def contains (field : String) : Value → Except PyError Bool
  | .dict members => pure (Dict.find field members).isSome
  | .list values => pure (values.any (isStr field))
  | .str s => pure (decide (field.toList <:+: s.toList))
  | value => throw (.type s!"argument of type '{kindName value}' is not iterable")

/-- `value[field]` -/
def item (field : String) : Value → Except PyError Value
  | .dict members =>
    match Dict.find field members with
    | some value => pure value
    | none => throw (.other s!"'{field}'")
  | .list _ => throw (.type "list indices must be integers or slices, not str")
  | .str _ => throw (.type "string indices must be integers, not 'str'")
  | value => throw (.type s!"'{kindName value}' object is not subscriptable")

/-- `value.get(field, default)` -/
def getItem (field : String) (default : Value) : Value → Except PyError Value
  | .dict members => pure ((Dict.find field members).getD default)
  | value => throw (.attribute s!"'{kindName value}' object has no attribute 'get'")

/-- `json.load` of a file that was opened as a text. -/
def loadJson (t : TextLayer) (invalid : String → PyError) (file : List UInt8) :
    Except PyError Value :=
  match t.decode file with
  | .error e => throw (.value e)
  | .ok text =>
    match loads text with
    | .error .decode => throw (invalid (t.jsonError text))
    | .error (.digits count) =>
      throw (.value (s!"Exceeds the limit ({maxStrDigits} digits) for integer string " ++
        s!"conversion: value has {count} digits; use sys.set_int_max_str_digits() to increase " ++
        "the limit"))
    | .ok value => pure value

/-- The files by their paths. -/
abbrev Files := String → Option (List UInt8)

section Checks

variable (t : TextLayer) (apjData : Value)

def boardIdCubeOrange : ℤ := 140

def requiredFields : List String := ["board_id", "magic", "image_size", "image"]

def checkField (field : String) : Except PyError Unit := do
  let found ← contains field apjData
  if !found then throw (.value s!"Missing required field in APJ: {field}")

def checkFields : Except PyError Unit := forM requiredFields (checkField apjData)

def checkMagic : Except PyError Unit := do
  let magic ← item "magic" apjData
  if !isStr "APJFWv1" magic then
    throw (.value s!"Invalid APJ magic: expected 'APJFWv1', got '{t.str magic}'")

/-- The value equals the board's number, as an integer or as a float. -/
def isBoard : Value → Bool
  | .int n => n = boardIdCubeOrange
  | .float x => x.value.toRat? = some (boardIdCubeOrange : ℚ)
  | _ => false

def checkBoard : Except PyError Unit := do
  let boardId ← item "board_id" apjData
  if !isBoard boardId then
    throw (.value (s!"Wrong board ID: expected {boardIdCubeOrange} (CubeOrange), " ++
      s!"got {t.str boardId}"))

def checkSize : Except PyError Unit := do
  let imageSize ← item "image_size" apjData
  if !(intOf imageSize).any (0 < ·) then
    throw (.value s!"Invalid image_size: {t.str imageSize}")

def isImage : Value → Bool
  | .str image => image ≠ ""
  | _ => false

def checkImage : Except PyError Unit := do
  let image ← item "image" apjData
  if !isImage image then throw (.value "Missing or empty image data")

def checkApj : Except PyError Unit := do
  checkFields apjData
  checkMagic t apjData
  checkBoard t apjData
  checkSize t apjData
  checkImage apjData

end Checks

def validateApj (t : TextLayer) (files : Files) (apjPath : String) : Except PyError Unit :=
  match files apjPath with
  | none => throw (.fileNotFound s!"APJ file not found: {apjPath}")
  | some file => do
    let apjData ← loadJson t (fun e => .value s!"Invalid JSON in APJ file: {e}") file
    checkApj t apjData

/-- The vendored class `firmware`. -/
structure ApjFirmware where
  boardId : Value
  imageSize : Value
  magic : Value

def ApjFirmware.read (t : TextLayer) (files : Files) (filename : String) :
    Except PyError ApjFirmware :=
  match files filename with
  | none => throw (.fileNotFound s!"[Errno 2] No such file or directory: '{filename}'")
  | some file => do
    let data ← loadJson t .value file
    let boardId ← getItem "board_id" (.int 0) data
    let imageSize ← getItem "image_size" (.int 0) data
    let magic ← getItem "magic" (.str "") data
    if !isStr "APJFWv1" magic then
      throw (.value s!"Invalid APJ magic: expected 'APJFWv1', got '{t.str magic}'")
    pure ⟨boardId, imageSize, magic⟩

/-- Where the uploader has got to after each of its blocks. -/
def blockEnds (totalSize : ℤ) : List ℤ :=
  (List.range ((totalSize + 1023) / 1024).toNat).map fun k : ℕ =>
    min (1024 * (k : ℤ) + 1024) totalSize

inductive Phase
  | sync
  | erase
  | program
  | verify
  | reboot
  deriving DecidableEq, Repr

/-- The place of a phase in a flash. -/
def Phase.rank : Phase → ℕ
  | .sync => 0
  | .erase => 1
  | .program => 2
  | .verify => 3
  | .reboot => 4

/-- What `progress_cb` is told. -/
structure Progress where
  phase : Phase
  current : ℤ
  total : ℤ
  deriving DecidableEq, Repr

/-- The phase is read off how far the upload is. -/
def uploadProgress (total current : ℤ) : Progress :=
  if current ≤ total / 4 then ⟨.erase, current * 4, total * 4⟩
  else if current ≤ total / 2 then ⟨.program, current * 2, total * 2⟩
  else ⟨.verify, current, total⟩

structure FlashResult where
  success : Bool
  errorMessage : Option String
  bytesFlashed : ℤ
  deriving DecidableEq, Repr

def connected : List Progress := [⟨.sync, 0, 4⟩, ⟨.sync, 1, 4⟩]

/-- The result of a flash and what is reported on the way. The vendored upload itself always
succeeds. -/
def flashFirmware (t : TextLayer) (files : Files) (apjPath : String) :
    FlashResult × List Progress :=
  match ApjFirmware.read t files apjPath with
  | .error e => (⟨false, some e.str, 0⟩, [])
  | .ok fw =>
    match intOf fw.imageSize with
    | none =>
      (⟨false, some s!"'{kindName fw.imageSize}' object cannot be interpreted as an integer", 0⟩,
        connected)
    | some totalSize =>
      (⟨true, none, totalSize⟩,
        connected ++ (blockEnds totalSize).map (uploadProgress totalSize) ++ [⟨.reboot, 4, 4⟩])

/-- What comes of writing to a file: it cannot be opened, or the disk fails with a part of the
bytes in it. -/
inductive Stored
  | whole
  | refused
  | part (kept : ℕ)
  deriving DecidableEq, Repr

/-- The server and the disk. -/
structure Surroundings where
  urlopen : String → Except PyError (List UInt8)
  mkdir : Bool
  store : String → Stored
  unlink : Bool

def Files.set (files : Files) (path : String) (content : Option (List UInt8)) : Files :=
  fun p => if p = path then content else files p

/-- A file of the server into the cache; an exception on the way ends the download. -/
def fetchInto (env : Surroundings) (url path : String) (files : Files) : Bool × Files :=
  match env.urlopen url with
  | .error _ => (false, files)
  | .ok data =>
    match env.store path with
    | .whole => (true, files.set path data)
    | .refused => (false, files)
    | .part kept => (false, files.set path (data.take kept))

def trackPaths : List String := ["stable", "beta", "latest"]

def baseUrl (track : String) : String := s!"https://firmware.ardupilot.org/Rover/{track}/CubeOrange"

def apjUrl (track : String) : String := s!"{baseUrl track}/ardurover.apj"

def versionUrl (track : String) : String := s!"{baseUrl track}/firmware-version.txt"

section Download

variable (t : TextLayer) (env : Surroundings) (track : String) (version : ℤ × ℤ × ℤ)
  (cacheDir : String) (files : Files)

def versionStr : String := s!"{version.1}.{version.2.1}.{version.2.2}"

def apjCachePath : String := s!"{cacheDir}/ardurover-{track}-{versionStr version}.apj"

def versionCachePath : String :=
  s!"{cacheDir}/firmware-version-{track}-{versionStr version}.txt"

/-- What is in the cache after the downloads is validated; an image that is no valid one is
removed, unless the check itself failed. -/
def keepValid : Option String × Files :=
  match validateApj t files (apjCachePath track version cacheDir) with
  | .ok () => (some (apjCachePath track version cacheDir), files)
  | .error (.value _) =>
    (none, if env.unlink then files.set (apjCachePath track version cacheDir) none else files)
  | .error _ => (none, files)

def downloadFirmware : Option String × Files :=
  if track ∈ trackPaths ∧ env.mkdir then
    let image := fetchInto env (apjUrl track) (apjCachePath track version cacheDir) files
    if image.1 then
      let both := fetchInto env (versionUrl track) (versionCachePath track version cacheDir) image.2
      if both.1 then keepValid t env track version cacheDir both.2 else (none, both.2)
    else (none, image.2)
  else (none, files)

end Download

section Valid

variable {t : TextLayer} {apjData : Value}

/-- The only errors are of the class `ValueError`. -/
def RaisesValue {α : Type} (x : Except PyError α) : Prop := ∀ e, x = .error e → ∃ m, e = .value m

theorem RaisesValue.pure {α : Type} (a : α) : RaisesValue (pure a : Except PyError α) := by
  intro e h
  cases h

theorem RaisesValue.bind {α β : Type} {x : Except PyError α} {f : α → Except PyError β}
    (hx : RaisesValue x) (hf : ∀ a, x = .ok a → RaisesValue (f a)) : RaisesValue (x >>= f) := by
  cases x with
  | error e =>
    intro e' h
    obtain rfl := Except.error.inj h
    exact hx e rfl
  | ok a => exact hf a rfl

theorem RaisesValue.check {failed : Prop} [Decidable failed] (message : String) :
    RaisesValue (if failed then throw (.value message) else Pure.pure () :
      Except PyError Unit) := by
  intro e h
  split_ifs at h
  · exact ⟨message, (Except.error.inj h).symm⟩
  · cases h

end Valid

section Files

variable {t : TextLayer} {files : Files} {path : String} {file : List UInt8} {totalSize : ℤ}

end Files

/-- A later report shows more, in the same phase or in a later one. -/
def Progress.Before (a b : Progress) : Prop :=
  a.phase.rank ≤ b.phase.rank ∧ a.current * b.total < b.current * a.total

section Upload

variable {totalSize : ℤ}

end Upload

example : (blockEnds 5000).map (uploadProgress 5000) =
    [⟨.erase, 4096, 20000⟩, ⟨.program, 4096, 10000⟩, ⟨.verify, 3072, 5000⟩, ⟨.verify, 4096, 5000⟩,
      ⟨.verify, 5000, 5000⟩] := by
  decide

theorem cachePaths_ne (track : String) (version : ℤ × ℤ × ℤ) (cacheDir : String) :
    apjCachePath track version cacheDir ≠ versionCachePath track version cacheDir := by
  intro h
  have htext := congrArg String.toList h
  have hfirst : "/ardurover-".toList = '/' :: 'a' :: "rdurover-".toList := by decide
  have hsecond : "/firmware-version-".toList = '/' :: 'f' :: "irmware-version-".toList := by decide
  simp only [apjCachePath, versionCachePath, String.toList_append, List.append_assoc,
    List.append_cancel_left_eq] at htext
  change "/ardurover-".toList ++ _ = "/firmware-version-".toList ++ _ at htext
  rw [hfirst, hsecond] at htext
  simp at htext

section Fetch

variable {env : Surroundings} {url path : String} {files : Files}

theorem fetchInto_fst : (fetchInto env url path files).1 = true ↔
    (∃ data, env.urlopen url = .ok data) ∧ env.store path = .whole := by
  rw [fetchInto]
  cases env.urlopen url with
  | error e => simp
  | ok data => cases env.store path <;> simp

theorem fetchInto_snd {data : List UInt8} (hdata : env.urlopen url = .ok data)
    (hstore : env.store path = .whole) :
    (fetchInto env url path files).2 = files.set path data := by
  simp [fetchInto, hdata, hstore]

theorem fetchInto_other {other : String} (hne : other ≠ path) :
    (fetchInto env url path files).2 other = files other := by
  rw [fetchInto]
  cases env.urlopen url with
  | error e => rfl
  | ok data => cases env.store path <;> simp [Files.set, hne]

end Fetch

/-- Everything but the check of the image: a known track, and both files from the server and on
the disk. -/
structure Fetches (env : Surroundings) (track : String) (version : ℤ × ℤ × ℤ) (cacheDir : String)
    (image : List UInt8) : Prop where
  known : track ∈ trackPaths
  mkdir : env.mkdir = true
  fetched : env.urlopen (apjUrl track) = .ok image ∧
    ∃ data, env.urlopen (versionUrl track) = .ok data
  stored : env.store (apjCachePath track version cacheDir) = .whole ∧
    env.store (versionCachePath track version cacheDir) = .whole

section Download

variable (t : TextLayer) (env : Surroundings) (track : String) (version : ℤ × ℤ × ℤ)
  (cacheDir : String) (files : Files)

variable {t env track version cacheDir files}

theorem Fetches.downloadFirmware {image : List UInt8}
    (h : Fetches env track version cacheDir image) (files : Files) :
    ∃ cached : Files, cached (apjCachePath track version cacheDir) = some image ∧
      downloadFirmware t env track version cacheDir files =
        keepValid t env track version cacheDir cached := by
  have hfirst : (fetchInto env (apjUrl track) (apjCachePath track version cacheDir)
      files).1 = true := fetchInto_fst.mpr ⟨⟨image, h.fetched.1⟩, h.stored.1⟩
  have hboth : (fetchInto env (versionUrl track) (versionCachePath track version cacheDir)
      (fetchInto env (apjUrl track) (apjCachePath track version cacheDir) files).2).1 = true :=
    fetchInto_fst.mpr ⟨h.fetched.2, h.stored.2⟩
  refine ⟨(fetchInto env (versionUrl track) (versionCachePath track version cacheDir)
    (fetchInto env (apjUrl track) (apjCachePath track version cacheDir) files).2).2, ?_, ?_⟩
  · rw [fetchInto_other (cachePaths_ne track version cacheDir),
      fetchInto_snd h.fetched.1 h.stored.1, Files.set, if_pos rfl]
  · simp only [Pixhawk.downloadFirmware, if_pos (And.intro h.known h.mkdir), hfirst, hboth, if_true]

variable (t env track version cacheDir files)

end Download

end MowerRover.Pixhawk
