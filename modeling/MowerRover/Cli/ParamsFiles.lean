import MowerRover.Cli.ParamsApply
import MowerRover.Params.Baseline
import MowerRover.Params.Snapshot

/-!
# Snapshots on the command line

`mower params diff` and `mower params apply` take the files that `snapshot` has
written. What they make of such a file is what they would make of the set that
was written: the comparison of two files is that of the two sets, and a set is
not written back to an autopilot that still has it.
-/

namespace MowerRover.Cli

open Effects Numeric Json Mavlink Params Pixhawk

/-- The extension of a file name read backwards: neither a dot in front nor one at the end
starts one. -/
def extensionOf (backwards : List Char) : List Char :=
  let extension := backwards.takeWhile (· ≠ '.')
  if extension = [] ∨ backwards.length ≤ extension.length + 1 then [] else '.' :: extension.reverse

/-- `Path(path).suffix.lower()` -/
def suffixOf (path : String) : List Char :=
  (extensionOf (path.toList.reverse.takeWhile (· ≠ '/'))).map Char.toLower

def lowered (path : String) : List Char := path.toList.map Char.toLower

section Loading

-- `yaml.safe_load`, and what the paths lead to
variable (cm : CaseMap) (safeLoad : List Char → Except String Yaml)
  (files : String → Option (List UInt8))

/-- `load_param_file` on the content of a file. -/
def loadParamBytes (path : String) (file : List UInt8) : Except PyError ParamSet :=
  match decodeUtf8 file with
  | none => throw (.value "'utf-8' codec can't decode bytes")
  | some text =>
    if suffixOf path ∈ [".yaml".toList, ".yml".toList, ".json".toList] then
      loadParamFile cm path (.yaml (safeLoad text))
    else loadParamFile cm path (.parm (String.ofList text))

/-- `_load_any` -/
def loadAny (path : String) : Except PyError ParamSet :=
  if (shippedProfiles.lookup path).isSome then loadProfile cm path
  else if lowered path = "baseline".toList then loadProfile cm "baseline"
  else
    match files path with
    | none =>
      if lowered path = "z254_baseline.yaml".toList then loadProfile cm "baseline"
      else throw (.badParameter s!"file not found: {path}")
    | some file =>
      if suffixOf path = ".json".toList then
        match loadJsonSnapshot cm path file with
        | .error (.value _) => loadParamBytes cm safeLoad path file
        | loaded => loaded
      else loadParamBytes cm safeLoad path file

/-- What `mower params diff` shows. -/
def diffCommand (left right : String) : Except PyError ParamDiff := do
  let leftSet ← loadAny cm safeLoad files left
  let rightSet ← loadAny cm safeLoad files right
  pure (diffParams leftSet rightSet defaultTol)

end Loading

section Snapshots

variable {cm : CaseMap} {safeLoad : List Char → Except String Yaml}
  {files : String → Option (List UInt8)}

/-- The file at a path is a snapshot of the set. -/
structure HoldsSnapshot (cm : CaseMap) (files : String → Option (List UInt8)) (path : String)
    (params : ParamSet) : Prop where
  suffix : suffixOf path = ".json".toList
  normal : params.Normal cm
  doubles : params.Doubles
  file : ∃ capturedAt metadata, (Value.dict metadata).Writable ∧
    files path = some (writeJsonSnapshot capturedAt metadata params)

theorem suffixOf_of_no_dot {path : String} (h : '.' ∉ path.toList) : suffixOf path = [] := by
  set name := path.toList.reverse.takeWhile (· ≠ '/') with hname
  have hall : ∀ c ∈ name, decide (c ≠ '.') = true := by
    intro c hc
    have hmem := (List.takeWhile_sublist _).subset hc
    exact decide_eq_true fun hdot => h (hdot ▸ List.mem_reverse.mp hmem)
  have hwhole : name.takeWhile (· ≠ '.') = name := List.takeWhile_eq_self_iff.mpr hall
  rw [suffixOf, ← hname, extensionOf, hwhole, if_pos (.inr (Nat.le_succ _))]
  rfl

/-- No shipped profile has the name of a JSON file. -/
theorem HoldsSnapshot.not_profile {path : String} {params : ParamSet}
    (h : HoldsSnapshot cm files path params) :
    (shippedProfiles.lookup path).isSome = false ∧ lowered path ≠ "baseline".toList := by
  have hdot : '.' ∈ path.toList := by
    by_contra hnone
    have hsuffix := h.suffix
    rw [suffixOf_of_no_dot hnone] at hsuffix
    cases hsuffix
  have hlowered : lowered path ≠ "baseline".toList := by
    intro hbase
    have hmem : Char.toLower '.' ∈ lowered path := List.mem_map_of_mem hdot
    rw [hbase] at hmem
    exact absurd hmem (by decide)
  refine ⟨?_, hlowered⟩
  rw [Option.isSome_eq_false_iff, Option.isNone_iff_eq_none, List.lookup_eq_none_iff]
  have hkeys : ∀ p ∈ shippedProfiles, '.' ∉ p.1.toList := by decide +kernel
  intro p hp
  rw [bne_iff_ne]
  rintro rfl
  exact hkeys p hp hdot

theorem HoldsSnapshot.loadAny {path : String} {params : ParamSet} (hcm : cm.Idempotent)
    (h : HoldsSnapshot cm files path params) :
    loadAny cm safeLoad files path = .ok params.sorted := by
  obtain ⟨hprofile, hbaseline⟩ := h.not_profile
  obtain ⟨capturedAt, metadata, hmetadata, hfile⟩ := h.file
  have hload := loadJsonSnapshot_write hcm h.normal h.doubles path capturedAt hmetadata
  simp only [Cli.loadAny, hprofile, if_neg hbaseline, hfile, h.suffix, hload, Bool.false_eq_true,
    if_false, if_true]

end Snapshots

/-- A snapshot is loaded as the set it was taken of, in the order of the names, and two snapshots
compare as the sets they were taken of. -/
theorem diffCommand_snapshots {cm : CaseMap} (hcm : cm.Idempotent)
    (safeLoad : List Char → Except String Yaml) {files : String → Option (List UInt8)}
    {left right : String} {old new : ParamSet} (hleft : HoldsSnapshot cm files left old)
    (hright : HoldsSnapshot cm files right new) :
    loadAny cm safeLoad files left = .ok old.sorted ∧
      diffCommand cm safeLoad files left right = .ok (diffParams old new defaultTol) := by
  refine ⟨hleft.loadAny hcm, ?_⟩
  rw [diffCommand, hleft.loadAny hcm, hright.loadAny hcm,
    ← diffParams_congr defaultTol old.lookup_sorted new.lookup_sorted]
  rfl

/-- A fence that is off in one snapshot and on in the other. -/
def fenceOff : ParamSet := ⟨[("FENCE_ENABLE", .fin 0)], by simp⟩

def fenceFiles (path : String) : Option (List UInt8) :=
  if path = "off.json" then some (writeJsonSnapshot "" [] fenceOff)
  else if path = "on.JSON" then some (writeJsonSnapshot "" [("param_count", .int 1)] fenceOn)
  else none

theorem holdsSnapshot_fenceOff : HoldsSnapshot .asciiOnly fenceFiles "off.json" fenceOff where
  suffix := by decide
  normal := by
    intro k hk
    obtain rfl := List.mem_singleton.mp hk
    exact ⟨"FENCE_ENABLE", normalizeName_of_plain _ (by decide)⟩
  doubles := by
    intro p hp
    obtain rfl := List.mem_singleton.mp hp
    exact ⟨0, 0, by norm_num, by norm_num, by simp, by simp⟩
  file := ⟨"", [], ⟨by simp, trivial⟩, rfl⟩

theorem holdsSnapshot_fenceOn : HoldsSnapshot .asciiOnly fenceFiles "on.JSON" fenceOn where
  suffix := by decide
  normal := by
    intro k hk
    obtain rfl := List.mem_singleton.mp hk
    exact ⟨"FENCE_ENABLE", normalizeName_of_plain _ (by decide)⟩
  doubles := by
    intro p hp
    obtain rfl := List.mem_singleton.mp hp
    have hone : (1 : ℚ≥0) < 2 ^ 1024 := one_lt_pow₀ one_lt_two (by decide)
    exact ⟨1, 0, by norm_num, by norm_num, by simp, by simpa using hone⟩
  file := by
    have hcount : (Value.int 1).Writable := by simp [Value.Writable, decimalDigits, maxStrDigits]
    exact ⟨"", [("param_count", .int 1)], ⟨by simp, hcount, trivial⟩, rfl⟩

theorem diffCommand_snapshots_fence :
    loadAny .asciiOnly (fun _ => .error "") fenceFiles "off.json" = .ok fenceOff.sorted ∧
      diffCommand .asciiOnly (fun _ => .error "") fenceFiles "off.json" "on.JSON" =
        .ok (diffParams fenceOff fenceOn defaultTol) :=
  diffCommand_snapshots CaseMap.idempotent_asciiOnly _ holdsSnapshot_fenceOff holdsSnapshot_fenceOn

/-- The calls by which the command does more than look. -/
def Touches : ToolOp → Prop
  | .link (.send _ (.paramSet _ _)) => True
  | .prompt _ => True
  | _ => False

/-- A list that was fetched during the run lacks a parameter of the set or has it with a value
that differs. -/
def Differs (cm : CaseMap) (params : ParamSet) (o : Oracle toolSignature)
    (past : List (Call toolSignature)) : Prop :=
  ∃ earlier conn fetched, earlier <:+ past ∧
    ((liftLink (fetchParams cm conn)).run o.handler earlier).result = .ok fetched ∧
    ∃ name value, params.lookup name = some value ∧
      ∀ v, fetched.lookup name = some v → v.exceeds defaultTol value = true

/-- Nothing was touched, or there was a difference. -/
def Warranted (cm : CaseMap) (params : ParamSet) (o : Oracle toolSignature)
    (past : List (Call toolSignature)) : Prop :=
  (∀ d ∈ past, ¬ Touches d.1) ∨ Differs cm params o past

section Restoring

variable {cm : CaseMap} {options : ApplyOptions} {desired : ParamSet} {o : Oracle toolSignature}

theorem keeps_differs (op : ToolOp) : Keeps o.handler (Differs cm desired o) op := by
  rintro past ⟨earlier, conn, fetched, hsuffix, hrest⟩
  exact ⟨earlier, conn, fetched, hsuffix.trans (List.suffix_cons _ _), hrest⟩

theorem keeps_untouched {op : ToolOp} (hop : ¬ Touches op) :
    Keeps o.handler (fun past => ∀ d ∈ past, ¬ Touches d.1) op := by
  intro past hs d hd
  obtain rfl | hd := List.mem_cons.mp hd
  · exact hop
  · exact hs d hd

theorem keeps_warranted {op : ToolOp} (hop : ¬ Touches op) :
    Keeps o.handler (Warranted cm desired o) op := fun past hs =>
  hs.imp (keeps_untouched hop past) (keeps_differs op past)

theorem IsConnecting.not_touches {op : ToolOp} (hop : IsConnecting op) : ¬ Touches op := by
  cases op <;> first | exact hop.elim | exact fun h => h

/-- Nothing was touched, and this list was fetched. -/
def Listed (cm : CaseMap) (o : Oracle toolSignature) (conn : Conn) (fetched : ParamSet)
    (past : List (Call toolSignature)) : Prop :=
  (∀ d ∈ past, ¬ Touches d.1) ∧ ∃ earlier, earlier <:+ past ∧
    ((liftLink (fetchParams cm conn)).run o.handler earlier).result = .ok fetched

theorem fetch_untouched (conn : Conn) :
    Preserves o.handler (fun past => ∀ d ∈ past, ¬ Touches d.1)
      (liftLink (fetchParams cm conn)) := by
  have hcalls : (fetchParams cm conn).Calls fun op => ¬ Touches (.link op) := by
    refine (calls_fetchParams cm conn).mono ?_
    rintro (⟨target, msg⟩ | types | timeout) hop
    · rw [show msg = requestList from hop]
      exact fun h => h
    · exact fun h => h
    · exact fun h => h
  exact Preserves.of_calls (fun op hop => keeps_untouched hop) (Program.Calls.mapOps hcalls)

theorem fetch_listed (conn : Conn) :
    Triple o.handler (fun past => ∀ d ∈ past, ¬ Touches d.1) (liftLink (fetchParams cm conn))
      (fun fetched => Listed cm o conn fetched) fun _ past => ∀ d ∈ past, ¬ Touches d.1 := by
  intro past hs
  have hpreserves : Preserves o.handler (fun past => ∀ d ∈ past, ¬ Touches d.1)
      (liftLink (fetchParams cm conn)) := fetch_untouched conn
  have hquiet := hpreserves past hs
  have hsuffix : past <:+ ((liftLink (fetchParams cm conn)).run o.handler past).state := by
    have hstep : ∀ op : ToolOp, Keeps o.handler (fun later => past <:+ later) op :=
      fun op later hlater => hlater.trans (List.suffix_cons _ _)
    exact (Preserves.always hstep _).state (List.suffix_refl past)
  exact ⟨fun fetched hfetched => ⟨hquiet.1 fetched hfetched, past, hsuffix, hfetched⟩, hquiet.2⟩

theorem preApplySnapshot_listed (conn : Conn) (fetched : ParamSet) :
    Preserves o.handler (Listed cm o conn fetched) (ParamsApply.preApplySnapshot options) := by
  have hkeep : Keeps o.handler (Listed cm o conn fetched) .writeJsonSnapshot := by
    rintro past ⟨hquiet, earlier, hsuffix, hfetched⟩
    have hwrite : ¬ Touches .writeJsonSnapshot := fun h => h
    exact ⟨keeps_untouched hwrite past hquiet, earlier, hsuffix.trans (List.suffix_cons _ _),
      hfetched⟩
  unfold ParamsApply.preApplySnapshot
  split_ifs
  · exact (ask_preserves hkeep).bind fun _ => raised_preserves _
  · exact Preserves.pure _

/-- A comparison that is not empty has found a difference in what was fetched. -/
theorem Listed.differs {conn : Conn} {fetched current : ParamSet} {past : List (Call toolSignature)}
    (hlisted : Listed cm o conn fetched past)
    (hcurrent : ∀ k v, current.lookup k = some v ↔ k ∈ desired.names ∧ fetched.lookup k = some v)
    (hdiff : (diffParams current desired defaultTol).isEmpty = false) :
    Differs cm desired o past := by
  obtain ⟨-, earlier, hsuffix, hfetched⟩ := hlisted
  refine ⟨earlier, conn, fetched, hsuffix, hfetched, ?_⟩
  by_contra hnone
  push Not at hnone
  rw [← Bool.not_eq_true, diffParams_isEmpty_iff] at hdiff
  apply hdiff
  constructor
  · intro name
    constructor
    · intro hmissing
      by_contra hthere
      obtain ⟨value, hvalue⟩ := Option.ne_none_iff_exists'.mp hthere
      obtain ⟨v, hv, -⟩ := hnone name value hvalue
      rw [(hcurrent name v).mpr ⟨mem_names_of_lookup hvalue, hv⟩] at hmissing
      cases hmissing
    · intro hmissing
      by_contra hthere
      obtain ⟨v, hv⟩ := Option.ne_none_iff_exists'.mp hthere
      exact ParamSet.lookup_eq_none.mp hmissing ((hcurrent name v).mp hv).1
  · intro name ov nv hov hnv
    obtain ⟨v, hv, hclose⟩ := hnone name nv hnv
    obtain rfl : v = ov := Option.some.inj (hv.symm.trans ((hcurrent name ov).mp hov).2)
    exact Bool.eq_false_iff.mpr hclose

theorem onLink_warranted (options : ApplyOptions) (hcm : cm.Idempotent)
    (hdesired : desired.Normal cm) (conn : Conn) :
    Triple o.handler (fun past => ∀ d ∈ past, ¬ Touches d.1)
      (ParamsApply.onLink cm options desired conn) (fun _ => Warranted cm desired o)
      fun _ => Warranted cm desired o := by
  refine ((fetch_listed conn).onError fun _ _ hs => .inl hs).bind fun fetched => ?_
  refine Triple.bind ((preApplySnapshot_listed conn fetched).onError fun _ _ hs => .inl hs.1)
    fun _ => ?_
  obtain ⟨current, hcurrent, hlookup⟩ := currentSubset_of_normal hcm hdesired fetched
  rw [hcurrent, raised_ok_bind]
  unfold ParamsApply.offer
  cases hempty : (diffParams current desired defaultTol).isEmpty with
  | true => exact Triple.pure fun _ hs => .inl hs.1
  | false =>
    exact Triple.conseq (Preserves.always keeps_differs _)
      (fun _ hs => hs.differs hlookup hempty) (fun _ _ hs => .inr hs) fun _ _ hs => .inr hs

end Restoring

/-- Against whatever answers, the file that `snapshot` wrote of a set makes `apply` ask the operator
or write a parameter only when it has fetched a list that lacks a parameter of the set or has it
with a value that differs. -/
theorem applyCommand_snapshot {cm : CaseMap} (hcm : cm.Idempotent)
    (safeLoad : List Char → Except String Yaml) {files : String → Option (List UInt8)}
    {path : String} {params : ParamSet} (hholds : HoldsSnapshot cm files path params)
    (options : ApplyOptions) (o : Oracle toolSignature) :
    ∃ desired, loadAny cm safeLoad files path = .ok desired ∧
      Warranted cm params o ((applyCommand cm options desired).trace o) := by
  refine ⟨params.sorted, hholds.loadAny hcm, ?_⟩
  have hnormal : params.sorted.Normal cm := hholds.normal.sorted
  have hsame : Warranted cm params.sorted o = Warranted cm params o := by
    funext past
    simp only [Warranted, Differs, ParamSet.lookup_sorted]
  rw [← hsame]
  have hkeep : ∀ op, IsConnecting op →
      Keeps o.handler (fun past => ∀ d ∈ past, ¬ Touches d.1) op := fun op hop =>
    keeps_untouched hop.not_touches
  have hrun := openLink_triple options.config (by simp [ApplyOptions.config])
    (connectOnce_triple _ hkeep fun t past _ hs _ => hkeep (.waitHeartbeat t) trivial past hs)
    hkeep (fun _ hs => hs) (fun _ hs => .inl hs) (fun op hop => keeps_warranted hop.not_touches)
    (fun _ => keeps_warranted fun h => h) (onLink_warranted options hcm hnormal)
  exact Triple.state hrun (by simp)

theorem applyCommand_snapshot_fence :
    ∃ desired, loadAny .asciiOnly (fun _ => .error "") fenceFiles "on.JSON" = .ok desired ∧
      Warranted .asciiOnly fenceOn fenceOracle
        ((applyCommand .asciiOnly {} desired).trace fenceOracle) :=
  applyCommand_snapshot CaseMap.idempotent_asciiOnly _ holdsSnapshot_fenceOn {} fenceOracle

end MowerRover.Cli
