import MowerRover.Params.ParamSet
import MowerRover.Yaml

/-!
# Parameter files

`load_param_file` takes YAML (and JSON, read as YAML) by the suffix of the path
and everything else as lines of `NAME,VALUE` or `NAME VALUE`. Either way the
names go through `_normalize_name`, which asks for no more than a name without
white space.
-/

namespace MowerRover.Params

open Numeric

variable (cm : CaseMap)

/-- The characters at which `str.splitlines` ends a line. -/
def isLineBreak (c : Char) : Bool :=
  let n := c.toNat
  (0x0a ≤ n && n ≤ 0x0d) || (0x1c ≤ n && n ≤ 0x1e) || n = 0x85 || n = 0x2028 || n = 0x2029

/-- The lines of a text, the first of which has been read up to here. -/
def linesFrom (line : List Char) : List Char → List (List Char)
  | [] => if line = [] then [] else [line]
  | '\r' :: '\n' :: cs => line :: linesFrom [] cs
  | c :: cs => if isLineBreak c then line :: linesFrom [] cs else linesFrom (line ++ [c]) cs

def splitLines (text : String) : List (List Char) := linesFrom [] text.toList

/-- `line.split("//", 1)[0]`. -/
def untilSlashes : List Char → List Char
  | '/' :: '/' :: _ => []
  | c :: cs => c :: untilSlashes cs
  | [] => []

/-- A line without its comment. -/
def stripComment (raw : List Char) : List Char := pyStrip (untilSlashes (raw.takeWhile (· ≠ '#')))

/-- The name and the value of a line. -/
def splitEntry (line : List Char) : Option (List Char × List Char) :=
  if ',' ∈ line then some (line.takeWhile (· ≠ ','), (line.dropWhile (· ≠ ',')).tail)
  else
    match line.dropWhile fun c => !pyIsSpace c with
    | [] => none
    | rest => some (line.takeWhile fun c => !pyIsSpace c, rest.dropWhile pyIsSpace)

def parmPairs : List (List Char) → Except PyError (List (String × PyFloat))
  | [] => pure []
  | raw :: lines =>
    let line := stripComment raw
    if line = [] then parmPairs lines
    else
      match splitEntry line with
      | none => throw (.value s!"unparseable param line: {strRepr (String.ofList raw)}")
      | some (name, value) => do
        let number ← pyFloat (.str (String.ofList (pyStrip value)))
        pure ((String.ofList (pyStrip name), number) :: (← parmPairs lines))

def parseParmText (text : String) : Except PyError ParamSet := do
  ParamSet.fromPairs cm (← parmPairs (splitLines text))

/-- The pairs of a mapping into the set; the value is converted first. -/
def ParamSet.insertEntries : List (Yaml × Yaml) → ParamSet → Except PyError ParamSet
  | [], out => pure out
  | (name, value) :: entries, out => do
    let number ← pyFloat value
    match name with
    | .str name => do
      let n ← normalizeName cm name
      insertEntries entries (out.insert n number)
    | name => throw (.attribute s!"'{name.typeName}' object has no attribute 'strip'")

def ParamSet.fromMapping (entries : List (Yaml × Yaml)) : Except PyError ParamSet :=
  insertEntries cm entries empty

/-- What a path leads to: nothing, what `yaml.safe_load` makes of the text, or the text. -/
inductive ParamFile
  | missing
  | yaml (parsed : Except String Yaml)
  | parm (text : String)

def loadParamFile (path : String) : ParamFile → Except PyError ParamSet
  | .missing => throw (.fileNotFound s!"No such file or directory: '{path}'")
  | .yaml (.error message) => throw (.other message)
  | .yaml (.ok raw) =>
    match if pyBool raw then raw else .dict [] with
    | .dict entries => ParamSet.fromMapping cm entries
    | raw => throw (.value s!"{path}: expected mapping at top level, got {raw.typeName}")
  | .parm text => parseParmText cm text

section Normal

variable {cm}

/-- Every name is a normal form. -/
def ParamSet.Normal (cm : CaseMap) (params : ParamSet) : Prop :=
  ∀ n ∈ params.names, ∃ name, normalizeName cm name = .ok n

theorem ParamSet.normal_insert {params : ParamSet} (hp : params.Normal cm) {name n : String}
    (hn : normalizeName cm name = .ok n) (value : PyFloat) : (params.insert n value).Normal cm := by
  intro k hk
  rcases mem_setItem_names.mp hk with rfl | hk
  · exact ⟨name, hn⟩
  · exact hp k hk

theorem ParamSet.normal_empty : ParamSet.empty.Normal cm := by simp [ParamSet.Normal, names, empty]

theorem insertPairs_normal {pairs : List (String × PyFloat)} {out params : ParamSet}
    (hout : out.Normal cm) (h : ParamSet.insertPairs cm pairs out = .ok params) :
    params.Normal cm := by
  induction pairs generalizing out with
  | nil =>
    obtain rfl : out = params := Except.ok.inj h
    exact hout
  | cons p pairs ih =>
    obtain ⟨name, value⟩ := p
    obtain ⟨n, hn, hrest⟩ := bind_eq_ok.mp h
    exact ih (ParamSet.normal_insert hout hn value) hrest

theorem insertEntries_normal {entries : List (Yaml × Yaml)} {out params : ParamSet}
    (hout : out.Normal cm) (h : ParamSet.insertEntries cm entries out = .ok params) :
    params.Normal cm := by
  induction entries generalizing out with
  | nil =>
    obtain rfl : out = params := Except.ok.inj h
    exact hout
  | cons p entries ih =>
    obtain ⟨name, value⟩ := p
    obtain ⟨number, -, h⟩ := bind_eq_ok.mp h
    cases name with
    | str name =>
      obtain ⟨n, hn, hrest⟩ := bind_eq_ok.mp h
      exact ih (ParamSet.normal_insert hout hn number) hrest
    | _ => simp at h

theorem loadParamFile_normal {path : String} {file : ParamFile} {params : ParamSet}
    (h : loadParamFile cm path file = .ok params) : params.Normal cm := by
  cases file with
  | missing => simp [loadParamFile] at h
  | yaml parsed =>
    cases parsed with
    | error message => simp [loadParamFile] at h
    | ok raw =>
      dsimp only [loadParamFile] at h
      split at h
      · exact insertEntries_normal ParamSet.normal_empty h
      · simp at h
  | parm text =>
    obtain ⟨pairs, -, hpairs⟩ := bind_eq_ok.mp h
    exact insertPairs_normal ParamSet.normal_empty hpairs

end Normal

end MowerRover.Params
