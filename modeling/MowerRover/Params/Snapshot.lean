import MowerRover.Json.Loads
import MowerRover.Numeric.Limits
import MowerRover.Params.Diff
import MowerRover.Params.Normal

/-!
# Snapshots of parameters

`write_json_snapshot` and `load_json_snapshot`. A snapshot holds the parameters
in the order of their names, so what is loaded is the written set with its
entries sorted; comparisons do not see that order.
-/

namespace MowerRover.Params

open Numeric Json

/-- The number that a float with a signed zero stands for. -/
def ofSigned : SignedFloat → PyFloat
  | .fin s q => .fin (SignedFloat.signed s q)
  | .inf s => .inf s
  | .nan => .nan

/-- The double at a float, which every Python float is. -/
def doubleOf : PyFloat → Double
  | .fin q => Double.ofRat (q < 0) q
  | .inf s => ⟨.inf s, trivial⟩
  | .nan => ⟨.nan, trivial⟩

theorem ofSigned_toSigned (x : PyFloat) : ofSigned x.toSigned = x := by
  cases x with
  | fin q =>
    have hcast : ((|q|.toNNRat : ℚ≥0) : ℚ) = |q| := Rat.coe_toNNRat _ (abs_nonneg q)
    rw [PyFloat.toSigned, ofSigned, SignedFloat.signed, hcast]
    by_cases hq : q < 0
    · simp [hq, abs_of_neg hq]
    · simp [hq, abs_of_nonneg (not_lt.mp hq)]
  | inf s => rfl
  | nan => rfl

theorem doubleOf_value {x : PyFloat} (hx : x.toSigned.IsDouble) : (doubleOf x).value =
    x.toSigned := by
  cases x with
  | fin q =>
    have hself := SignedFloat.nearest_of_isDouble hx
    have hsigned : SignedFloat.signed (q < 0) |q|.toNNRat = q := by
      have hback := ofSigned_toSigned (.fin q)
      exact PyFloat.fin.inj hback
    rw [hsigned] at hself
    exact hself
  | inf s => rfl
  | nan => rfl

theorem ofSigned_doubleOf {x : PyFloat} (hx : x.toSigned.IsDouble) :
    ofSigned (doubleOf x).value = x := by
  rw [doubleOf_value hx, ofSigned_toSigned]

section Files

variable (capturedAt : String) (metadata : List (String × Value)) (params : ParamSet)

def snapshotPayload : Value :=
  .dict [("schema", .str "mower-rover.params.snapshot.v1"), ("captured_at", .str capturedAt),
    ("metadata", .dict metadata),
    ("params", .dict (params.asSortedDict.map fun p => (p.1, .float (doubleOf p.2))))]

/-- The bytes of the file. -/
def writeJsonSnapshot : List UInt8 :=
  encodeUtf8 (dumpsIndent 2 0 (snapshotPayload capturedAt metadata params) ++ ['\n'])

end Files

/-- A value for `float`, which does not look at items. -/
def pyValue : Value → Yaml
  | .null => .null
  | .bool b => .bool b
  | .int n => .int n
  | .float x => .float (ofSigned x.value)
  | .str s => .str s
  | .list _ => .list []
  | .dict _ => .dict []

/-- The text of a file that is none of UTF-8 or of JSON is a `ValueError`. -/
def loadJsonSnapshot (cm : CaseMap) (path : String) (file : List UInt8) : Except PyError ParamSet :=
  match (decodeUtf8 file).elim (.error .decode) loads with
  | .error _ => throw (.value "Expecting value")
  | .ok (.dict payload) =>
    match Dict.find "params" payload with
    | none => throw (.value s!"{path}: not a mower-rover param snapshot")
    | some (.dict pairs) => ParamSet.fromMapping cm (pairs.map fun p => (.str p.1, pyValue p.2))
    | some raw => throw (.attribute s!"'{(pyValue raw).typeName}' object has no attribute 'items'")
  | .ok _ => throw (.value s!"{path}: not a mower-rover param snapshot")

namespace ParamSet

variable {params : ParamSet}

theorem sorted_nodup (params : ParamSet) : (params.asSortedDict.map Prod.fst).Nodup := by
  have hperm : params.asSortedDict.Perm params.values := List.mergeSort_perm _ _
  exact (hperm.map Prod.fst).nodup_iff.mpr params.nodup

/-- The set with its entries in the order of their names. -/
def sorted (params : ParamSet) : ParamSet := ⟨params.asSortedDict, params.sorted_nodup⟩

theorem lookup_sorted (params : ParamSet) (name : String) :
    params.sorted.lookup name = params.lookup name := by
  apply Option.ext
  intro v
  rw [lookup_eq_some, lookup_eq_some]
  exact mem_asSortedDict

theorem Normal.sorted {cm : CaseMap} (h : params.Normal cm) : params.sorted.Normal cm := by
  have hperm : params.asSortedDict.Perm params.values := List.mergeSort_perm _ _
  exact fun n hn => h n ((hperm.map Prod.fst).mem_iff.mp hn)

/-- Every value is a double. -/
def Doubles (params : ParamSet) : Prop := ∀ p ∈ params.values, p.2.toSigned.IsDouble

end ParamSet

section RoundTrip

variable {cm : CaseMap} {params : ParamSet}

theorem insertEntries_of_floats (entries : List (String × PyFloat)) (out : ParamSet) :
    ParamSet.insertEntries cm (entries.map fun p => (.str p.1, .float p.2)) out =
      ParamSet.insertPairs cm entries out := by
  induction entries generalizing out with
  | nil => rfl
  | cons p entries ih =>
    rw [List.map_cons, ParamSet.insertEntries, ParamSet.insertPairs]
    simp only [pyFloat, pure_eq_ok, ok_bind, ih]

theorem writable_floats (entries : List (String × PyFloat)) :
    WritableMembers (entries.map fun p => (p.1, .float (doubleOf p.2))) := by
  induction entries with
  | nil => trivial
  | cons p entries ih => exact ⟨trivial, ih⟩

theorem writable_payload (params : ParamSet) (capturedAt : String)
    {metadata : List (String × Value)}
    (hmetadata : (Value.dict metadata).Writable) :
    (snapshotPayload capturedAt metadata params).Writable := by
  have hkeys : ((params.asSortedDict.map fun p => (p.1, Value.float (doubleOf p.2))).map
      Prod.fst).Nodup := by
    rw [List.map_map]
    exact params.sorted_nodup
  exact ⟨by simp, trivial, trivial, hmetadata, ⟨hkeys, writable_floats _⟩, trivial⟩

/-- What is loaded is the set that was written. -/
theorem loadJsonSnapshot_write (hcm : cm.Idempotent) (hnormal : params.Normal cm)
    (hdoubles : params.Doubles) (path capturedAt : String) {metadata : List (String × Value)}
    (hmetadata : (Value.dict metadata).Writable) :
    loadJsonSnapshot cm path (writeJsonSnapshot capturedAt metadata params) =
      .ok params.sorted := by
  have hloads := loads_dumpsIndent 2 (writable_payload params capturedAt hmetadata)
    (show ∀ c ∈ ['\n'], isWs c = true by simp [isWs])
  have hfind : Dict.find "params" [("schema", Value.str "mower-rover.params.snapshot.v1"),
      ("captured_at", .str capturedAt), ("metadata", .dict metadata),
      ("params", .dict (params.asSortedDict.map fun p => (p.1, .float (doubleOf p.2))))] =
      some (.dict (params.asSortedDict.map fun p => (p.1, .float (doubleOf p.2)))) := rfl
  have hentries : (params.asSortedDict.map fun p => (p.1, Value.float (doubleOf p.2))).map
      (fun p => (Yaml.str p.1, pyValue p.2)) =
      params.asSortedDict.map fun p => (.str p.1, .float p.2) := by
    rw [List.map_map]
    apply List.map_congr_left
    intro p hp
    have hback := ofSigned_doubleOf (hdoubles p (ParamSet.mem_asSortedDict.mp hp))
    simp [pyValue, hback]
  have hfixed : ∀ p ∈ params.asSortedDict, normalizeName cm p.1 = .ok p.1 := fun p hp =>
    hnormal.fixed hcm (List.mem_map_of_mem (ParamSet.mem_asSortedDict.mp hp))
  rw [loadJsonSnapshot, writeJsonSnapshot, decodeUtf8_encodeUtf8, Option.elim_some, hloads,
    snapshotPayload]
  simp only [hfind, hentries]
  rw [ParamSet.fromMapping, insertEntries_of_floats, ← ParamSet.fromPairs,
    ParamSet.fromPairs_of_fixed hfixed params.sorted_nodup]
  rfl

end RoundTrip

section Comparing

variable {old old' new new' : ParamSet}

theorem mem_names_iff {params : ParamSet} {name : String} :
    name ∈ params.names ↔ params.lookup name ≠ none := by
  rw [ne_eq, ParamSet.lookup_eq_none, not_not]

theorem unionNames_congr (hold : ∀ name, old.lookup name = old'.lookup name)
    (hnew : ∀ name, new.lookup name = new'.lookup name) :
    unionNames old new = unionNames old' new' := by
  have hmem : ∀ name, name ∈ unionNames old new ↔ name ∈ unionNames old' new' := by
    intro name
    rw [mem_unionNames, mem_unionNames]
    simp only [mem_names_iff, hold, hnew]
  have hperm : (unionNames old new).Perm (unionNames old' new') :=
    (List.perm_ext_iff_of_nodup (unionNames_nodup old new) (unionNames_nodup old' new')).mpr hmem
  have hsorted : ∀ names : List String, (names.mergeSort (· ≤ ·)).Pairwise (· ≤ ·) := by
    intro names
    have htrans : ∀ a b c : String, decide (a ≤ b) = true → decide (b ≤ c) = true →
        decide (a ≤ c) = true := fun a b c => by simpa using String.le_trans
    have htotal : ∀ a b : String, (decide (a ≤ b) || decide (b ≤ a)) = true := fun a b => by
      simpa using String.le_total a b
    simpa using List.pairwise_mergeSort htrans htotal names
  exact hperm.eq_of_pairwise (fun a b _ _ => String.le_antisymm) (hsorted _) (hsorted _)

theorem diffParams_congr (tolerance : ℚ) (hold : ∀ name, old.lookup name = old'.lookup name)
    (hnew : ∀ name, new.lookup name = new'.lookup name) :
    diffParams old new tolerance = diffParams old' new' tolerance := by
  have hone : diffName old new tolerance = diffName old' new' tolerance := by
    funext diff name
    rw [diffName, diffName, hold, hnew]
  rw [diffParams, diffParams, hone, unionNames_congr hold hnew]

end Comparing

end MowerRover.Params
