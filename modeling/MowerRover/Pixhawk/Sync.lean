import MowerRover.Params.Baseline
import MowerRover.Params.Diff
import MowerRover.Params.Fetch

/-!
# Synchronizing the parameters

`sync_params` lays the requested profiles over each other, fetches what the
autopilot has, and writes the parameters that drifted. Parameters of a profile
that were not fetched are taken for parameters the firmware does not have: they
are reported in the log and left alone.
-/

namespace MowerRover.Pixhawk

open Effects Numeric Mavlink Params

inductive SyncError
  /-- `unknown profile 'name'` -/
  | unknownProfile (name : String)
  /-- `fetch_params failed: exc` -/
  | fetchFailed (exc : PyError)
  /-- `apply_params failed: exc` -/
  | applyFailed (exc : PyError)
  /-- `param name=value failed: reason` -/
  | paramFailed (name : String) (value : PyFloat) (reason : ApplyError)
  /-- `lua deploy: exc` -/
  | luaDeploy (exc : PyError)
  deriving DecidableEq

structure SyncResult where
  paramsChecked : ℕ := 0
  paramsApplied : ℕ := 0
  paramsAlreadyCurrent : Bool := false
  luaDeployed : Bool := false
  profilesApplied : List String := []
  errors : List SyncError := []
  deriving DecidableEq

def SyncResult.ok (result : SyncResult) : Bool := result.errors.length = 0

def defaultSyncProfiles : List String := ["safety-defaults"]

variable (cm : CaseMap)

/-- `for k in ps: combined[k] = ps[k]`. -/
def overlay (params : ParamSet) : List String → List (String × PyFloat) →
    Except PyError (List (String × PyFloat))
  | [], combined => pure combined
  | k :: names, combined => do
    let value ← params.getItem cm k
    overlay params names (setItem combined k value)

def combineProfiles : List String → List (String × PyFloat) → List SyncError →
    Except PyError (List (String × PyFloat) × List SyncError)
  | [], combined, errors => pure (combined, errors)
  | name :: profiles, combined, errors =>
    if (shippedProfiles.lookup name).isNone then
      combineProfiles profiles combined (errors ++ [.unknownProfile name])
    else do
      let params ← loadProfile cm name
      let combined ← overlay cm params params.names combined
      combineProfiles profiles combined errors

/-- The combined profiles, and an error for each that is not known. -/
def desiredParams (profiles : List String) : Except PyError (ParamSet × List SyncError) := do
  let (combined, errors) ← combineProfiles cm profiles [] []
  let desired ← ParamSet.fromPairs cm combined
  pure (desired, errors)

/-- The pairs `(k, current_full[k]) for k in desired if k in current_full`. -/
def presentPairs (currentFull : ParamSet) : List String → Except PyError (List (String × PyFloat))
  | [] => pure []
  | k :: names => do
    if ← currentFull.contains cm k then
      let value ← currentFull.getItem cm k
      let pairs ← presentPairs currentFull names
      pure ((k, value) :: pairs)
    else presentPairs currentFull names

def currentSubset (currentFull desired : ParamSet) : Except PyError ParamSet := do
  let pairs ← presentPairs cm currentFull desired.names
  ParamSet.fromPairs cm pairs

/-- The pairs `{c.name: c.new for c in diff.changed}`. -/
def changedPairs : List ParamChange → Except PyError (List (String × PyFloat))
  | [] => pure []
  | c :: changed =>
    match c.new with
    | none => throw (.type "float() argument must be a string or a real number, not 'NoneType'")
    | some value => do
      let pairs ← changedPairs changed
      pure ((c.name, value) :: pairs)

def toApply (diff : ParamDiff) : Except PyError ParamSet := do
  let pairs ← changedPairs diff.changed
  ParamSet.fromPairs cm pairs

/-- The parameters that are written when these are the current ones. -/
def driftOf (desired currentFull : ParamSet) : Except PyError ParamSet := do
  let current ← currentSubset cm currentFull desired
  toApply cm (diffParams current desired defaultTol)

/-- The result with the failures of `apply_params`, or its exception. -/
def mergeApply (result synced : SyncResult) : Except PyError ApplyResult → SyncResult
  | .error exc => { result with errors := result.errors ++ [.applyFailed exc] }
  | .ok applied =>
    { synced with
      errors := synced.errors ++ applied.failures.map fun (name, value, reason) =>
        .paramFailed name value reason }

/-- Write what has changed. -/
def applyDrift (conn : Conn) (profiles : List String) (diff : ParamDiff) (result : SyncResult) :
    LinkM SyncResult := do
  let params ← Program.ofExcept (toApply cm diff)
  let synced : SyncResult :=
    { result with paramsApplied := diff.changed.length, profilesApplied := profiles }
  if params.values.isEmpty then pure synced
  else
    let applied ← (applyParams cm conn params true 2 3).attempt
    pure (mergeApply result synced applied)

/-- What follows the fetch. -/
def syncDrift (conn : Conn) (profiles : List String) (dryRun : Bool)
    (desired currentFull : ParamSet)
    (result : SyncResult) : LinkM SyncResult := do
  let current ← Program.ofExcept (currentSubset cm currentFull desired)
  let diff := diffParams current desired defaultTol
  if diff.isEmpty then
    pure { result with paramsAlreadyCurrent := true, profilesApplied := profiles }
  else if dryRun then
    pure { result with
      paramsApplied := diff.changed.length + diff.added.length, profilesApplied := profiles }
  else applyDrift cm conn profiles diff result

def syncParams (conn : Conn) (profiles : List String) (dryRun : Bool) : LinkM SyncResult := do
  let (desired, errors) ← Program.ofExcept (desiredParams cm profiles)
  let result : SyncResult := { paramsChecked := desired.values.length, errors }
  if desired.values.isEmpty then pure { result with paramsAlreadyCurrent := true }
  else
    match ← (fetchParams cm conn).attempt with
    | .error exc => pure { result with errors := result.errors ++ [.fetchFailed exc] }
    | .ok currentFull => syncDrift cm conn profiles dryRun desired currentFull result

section Desired

/-- The names of one profile laid over another one. -/
theorem overlay_profile (profile : Profile) (names : List String)
    (hnames : ∀ k ∈ names, k ∈ profile.params.names) (combined : Profile) :
    ∃ result : Profile, overlay cm profile.params names combined.pairs = .ok result.pairs := by
  induction names generalizing combined with
  | nil => exact ⟨combined, rfl⟩
  | cons k names ih =>
    have hk := hnames k List.mem_cons_self
    have hplain := Profile.plain_of_mem_names hk
    cases hv : profile.params.lookup k with
    | none => exact absurd hk (ParamSet.lookup_eq_none.mp hv)
    | some value =>
      obtain ⟨result, hresult⟩ := ih (fun n hn => hnames n (List.mem_cons_of_mem _ hn))
        (combined.set k value hplain (Profile.finite_of_lookup hv))
      refine ⟨result, ?_⟩
      unfold overlay
      rw [ParamSet.getItem_of_plain hplain hv]
      exact hresult

theorem combineProfiles_profile (profiles : List String) (combined : Profile)
    (errors : List SyncError) : ∃ result : Profile, ∃ more,
      combineProfiles cm profiles combined.pairs errors = .ok (result.pairs, errors ++ more) := by
  induction profiles generalizing combined errors with
  | nil => exact ⟨combined, [], by simp [combineProfiles]⟩
  | cons name profiles ih =>
    unfold combineProfiles
    cases hload : shippedProfiles.lookup name with
    | none =>
      obtain ⟨result, more, hrest⟩ := ih combined (errors ++ [.unknownProfile name])
      exact ⟨result, .unknownProfile name :: more, by simpa using hrest⟩
    | some profile =>
      obtain ⟨laid, hlaid⟩ :=
        overlay_profile cm profile profile.params.names (fun _ hk => hk) combined
      obtain ⟨result, more, hrest⟩ := ih laid errors
      refine ⟨result, more, ?_⟩
      rw [if_neg (by simp), loadProfile_eq hload]
      exact bind_eq_ok.mpr ⟨_, rfl, bind_eq_ok.mpr ⟨_, hlaid, hrest⟩⟩

theorem desiredParams_profile (profiles : List String) :
    ∃ desired : Profile, ∃ errors, desiredParams cm profiles = .ok (desired.params, errors) := by
  obtain ⟨desired, errors, hcombined⟩ :=
    combineProfiles_profile cm profiles Profile.empty []
  refine ⟨desired, errors, ?_⟩
  exact bind_eq_ok.mpr ⟨_, hcombined,
    bind_eq_ok.mpr ⟨_, ParamSet.fromPairs_of_plain desired.plain desired.nodup, rfl⟩⟩

end Desired

/-- The value the autopilot has is too far from the desired one. -/
def Drifted (desired current : ParamSet) (name : String) (value : PyFloat) : Prop :=
  desired.lookup name = some value ∧
    ∃ old, current.lookup name = some old ∧ old.exceeds defaultTol value = true

/-- The autopilot has every desired parameter, with a close value. -/
def Current (desired current : ParamSet) : Prop :=
  ∀ name value, desired.lookup name = some value →
    ∃ old, current.lookup name = some old ∧ old.exceeds defaultTol value = false

theorem Current.not_drifted {desired current : ParamSet} (h : Current desired current)
    {name : String} {value : PyFloat} : ¬ Drifted desired current name value := by
  rintro ⟨hvalue, old, hold, hx⟩
  obtain ⟨old', hold', hclose⟩ := h name value hvalue
  obtain rfl : old = old' := Option.some.inj (hold.symm.trans hold')
  simp [hx] at hclose

section Drift

variable (desired : Profile) (full : ParamSet)

theorem presentPairs_eq {names : List String} (hplain : ∀ k ∈ names, isPlain k = true) :
    presentPairs cm full names = .ok (tabulate names full.lookup) := by
  induction names with
  | nil => rfl
  | cons k names ih =>
    have hk := hplain k List.mem_cons_self
    have hrest := ih fun n hn => hplain n (List.mem_cons_of_mem _ hn)
    unfold presentPairs
    rw [ParamSet.contains_of_plain full hk]
    cases hv : full.lookup k with
    | none => simpa [tabulate, hv] using hrest
    | some v =>
      rw [ParamSet.getItem_of_plain hk hv, hrest]
      simp [tabulate, hv]

theorem currentSubset_lookup : ∃ current, currentSubset cm full desired.params = .ok current ∧
    ∀ k v, current.lookup k = some v ↔ k ∈ desired.params.names ∧ full.lookup k = some v := by
  have hplain : ∀ k ∈ desired.params.names, isPlain k = true := fun k hk =>
    Profile.plain_of_mem_names hk
  obtain ⟨current, hcurrent, hlookup⟩ :=
    fromPairs_tabulate cm full.lookup hplain desired.params.nodup
  exact ⟨current, bind_eq_ok.mpr ⟨_, presentPairs_eq cm full hplain, hcurrent⟩, hlookup⟩

/-- The value to be written under a name that changed. -/
def newValue (old new : ParamSet) (name : String) : Option PyFloat :=
  (changedAt old new defaultTol name).bind ParamChange.new

theorem changedPairs_eq (old new : ParamSet) (names : List String) :
    changedPairs (names.filterMap (changedAt old new defaultTol)) =
      .ok (tabulate names (newValue old new)) := by
  induction names with
  | nil => rfl
  | cons k names ih =>
    unfold tabulate newValue at ih ⊢
    cases hk : changedAt old new defaultTol k with
    | none => simpa [hk] using ih
    | some c =>
      obtain ⟨v, hname, hv⟩ : ∃ v, c.name = k ∧ c.new = some v := by
        unfold changedAt at hk
        split at hk
        · split at hk
          · obtain rfl := Option.some.inj hk
            exact ⟨_, rfl, rfl⟩
          · simp at hk
        · simp at hk
      simp [hk, changedPairs, hv, ih, hname]

theorem newValue_eq_some {old new : ParamSet} {name : String} {v : PyFloat} :
    newValue old new name = some v ↔ new.lookup name = some v ∧
      ∃ ov, old.lookup name = some ov ∧ ov.exceeds defaultTol v = true := by
  unfold newValue changedAt
  cases old.lookup name with
  | none => simp
  | some ov =>
    cases new.lookup name with
    | none => simp
    | some nv =>
      by_cases hx : ov.exceeds defaultTol nv = true
      · simp only [if_pos hx, Option.bind_some, Option.some.injEq, exists_eq_left']
        constructor
        · rintro rfl
          exact ⟨rfl, hx⟩
        · exact And.left
      · simp only [if_neg hx, Option.bind_none, Option.some.injEq, exists_eq_left', false_iff,
          reduceCtorEq]
        rintro ⟨rfl, hx'⟩
        exact hx hx'

variable {desired full} {current : ParamSet}

theorem diffParams_isEmpty_iff_current
    (h : ∀ k v, current.lookup k = some v ↔ k ∈ desired.params.names ∧ full.lookup k = some v) :
    (diffParams current desired.params defaultTol).isEmpty = true ↔
      Current desired.params full := by
  rw [diffParams_isEmpty_iff]
  constructor
  · rintro ⟨hnames, hclose⟩ name value hvalue
    cases hold : current.lookup name with
    | none => simp [(hnames name).mp hold] at hvalue
    | some old => exact ⟨old, ((h name old).mp hold).2, hclose name old value hold hvalue⟩
  · intro hcurrent
    constructor
    · intro name
      rw [Option.eq_none_iff_forall_ne_some, Option.eq_none_iff_forall_ne_some]
      constructor
      · intro hnone value hvalue
        obtain ⟨old, hold, -⟩ := hcurrent name value hvalue
        exact hnone old ((h name old).mpr ⟨mem_names_of_lookup hvalue, hold⟩)
      · intro hnone old hold
        exact ParamSet.lookup_eq_none.mp (Option.eq_none_iff_forall_ne_some.mpr hnone)
          ((h name old).mp hold).1
    · intro name old value hold hvalue
      obtain ⟨old', hold', hclose⟩ := hcurrent name value hvalue
      obtain rfl : old = old' :=
        Option.some.inj (((h name old).mp hold).2.symm.trans hold')
      exact hclose

theorem toApply_lookup
    (h : ∀ k v, current.lookup k = some v ↔ k ∈ desired.params.names ∧ full.lookup k = some v) :
    ∃ drift, toApply cm (diffParams current desired.params defaultTol) = .ok drift ∧
      ∀ k v, drift.lookup k = some v ↔ Drifted desired.params full k v := by
  have hplain : ∀ k ∈ unionNames current desired.params, isPlain k = true := by
    intro k hk
    rcases (mem_unionNames _ _).mp hk with hk | hk
    · obtain ⟨p, hp, rfl⟩ := List.mem_map.mp hk
      exact Profile.plain_of_mem_names ((h _ _).mp (ParamSet.lookup_eq_some.mpr hp)).1
    · exact Profile.plain_of_mem_names hk
  obtain ⟨drift, hdrift, hlookup⟩ := fromPairs_tabulate cm (newValue current desired.params) hplain
    (unionNames_nodup current desired.params)
  refine ⟨drift, ?_, fun k v => ?_⟩
  · unfold toApply
    rw [diffParams_eq]
    exact bind_eq_ok.mpr ⟨_, changedPairs_eq _ _ _, hdrift⟩
  · rw [hlookup, newValue_eq_some]
    constructor
    · rintro ⟨-, hv, old, hold, hx⟩
      exact ⟨hv, old, ((h k old).mp hold).2, hx⟩
    · rintro ⟨hv, old, hold, hx⟩
      have hk := mem_names_of_lookup hv
      exact ⟨(mem_unionNames _ _).mpr (.inr hk), hv, old, (h k old).mpr ⟨hk, hold⟩, hx⟩

theorem driftOf_lookup (desired : Profile) (full : ParamSet) :
    ∃ drift, driftOf cm desired.params full = .ok drift ∧
      ∀ k v, drift.lookup k = some v ↔ Drifted desired.params full k v := by
  obtain ⟨current, hcurrent, hlookup⟩ := currentSubset_lookup cm desired full
  obtain ⟨drift, hdrift, hwritten⟩ := toApply_lookup cm hlookup
  exact ⟨drift, bind_eq_ok.mpr ⟨current, hcurrent, hdrift⟩, hwritten⟩

theorem lookup_drift {drift : ParamSet} (h : driftOf cm desired.params full = .ok drift)
    (k : String) (v : PyFloat) :
    drift.lookup k = some v ↔ Drifted desired.params full k v := by
  obtain ⟨drift', hdrift', hlookup⟩ := driftOf_lookup cm desired full
  obtain rfl : drift = drift' := Except.ok.inj (h.symm.trans hdrift')
  exact hlookup k v

end Drift

section Runs

variable {cm} {σ τ : Type} {h : Handler linkSignature σ τ} {desired : Profile}
  {full : ParamSet} (conn : Conn) (profiles : List String) (result : SyncResult) (s : σ)

theorem syncDrift_current (dryRun : Bool) (hc : Current desired.params full) :
    (syncDrift cm conn profiles dryRun desired.params full result).run h s =
      ⟨.ok { result with paramsAlreadyCurrent := true, profilesApplied := profiles }, s, []⟩ := by
  obtain ⟨current, hcurrent, hlookup⟩ := currentSubset_lookup cm desired full
  unfold syncDrift
  rw [hcurrent, Program.run_bind, Program.run_ofExcept, Outcome.andThen_mk_ok, if_pos]
  · rfl
  · exact (diffParams_isEmpty_iff_current hlookup).mpr hc

/-- Drift without a dry run: what drifted is written. -/
theorem syncDrift_drifted (hc : ¬ Current desired.params full) :
    ∃ drift : ParamSet, ∃ changed, driftOf cm desired.params full = .ok drift ∧
      (syncDrift cm conn profiles false desired.params full result).run h s =
        let o := (applyParams cm conn drift true 2 3).run h s
        ⟨.ok (mergeApply result
          { result with paramsApplied := changed, profilesApplied := profiles } o.result),
          o.state, o.events⟩ := by
  obtain ⟨current, hcurrent, hlookup⟩ := currentSubset_lookup cm desired full
  obtain ⟨drift, hdrift, -⟩ := toApply_lookup cm hlookup
  refine ⟨drift, (diffParams current desired.params defaultTol).changed.length,
    bind_eq_ok.mpr ⟨current, hcurrent, hdrift⟩, ?_⟩
  unfold syncDrift
  rw [hcurrent, Program.run_bind, Program.run_ofExcept, Outcome.andThen_mk_ok, if_neg]
  · unfold applyDrift
    simp only [hdrift, Bool.false_eq_true, if_false, Program.run_bind, Program.run_ofExcept,
      Outcome.andThen_mk_ok, Outcome.after_nil]
    by_cases hempty : drift.values.isEmpty = true
    · have hnil : drift.asSortedDict = [] := by
        simp [ParamSet.asSortedDict, List.isEmpty_iff.mp hempty]
      simp [hempty, applyParams, hnil, applyEach, mergeApply]
    · simp only [if_neg hempty, Program.run_bind, Program.run_attempt, Outcome.andThen_mk_ok,
        Program.run_pure]
      simp [Outcome.after]
  · rw [diffParams_isEmpty_iff_current hlookup]
    exact hc

theorem syncParams_empty (dryRun : Bool) {errors : List SyncError}
    (hdesired : desiredParams cm profiles = .ok (desired.params, errors))
    (hne : desired.pairs = []) :
    (syncParams cm conn profiles dryRun).run h s =
      ⟨.ok { paramsAlreadyCurrent := true, errors }, s, []⟩ := by
  unfold syncParams
  simp [hdesired, Program.run_bind, Profile.params, hne]

theorem syncParams_unfetched (dryRun : Bool) {errors : List SyncError}
    (hdesired : desiredParams cm profiles = .ok (desired.params, errors))
    (hne : desired.pairs ≠ []) {exc : PyError}
    (hfetch : ((fetchParams cm conn).run h s).result = .error exc) :
    (syncParams cm conn profiles dryRun).run h s =
      ⟨.ok { paramsChecked := desired.pairs.length, errors := errors ++ [.fetchFailed exc] },
        ((fetchParams cm conn).run h s).state, ((fetchParams cm conn).run h s).events⟩ := by
  unfold syncParams
  simp [hdesired, Program.run_bind, Program.run_attempt, hfetch, Profile.params, hne, Outcome.after]

theorem syncParams_fetched (dryRun : Bool) {errors : List SyncError}
    (hdesired : desiredParams cm profiles = .ok (desired.params, errors))
    (hne : desired.pairs ≠ []) (hfetch : ((fetchParams cm conn).run h s).result = .ok full) :
    (syncParams cm conn profiles dryRun).run h s =
      ((syncDrift cm conn profiles dryRun desired.params full
        { paramsChecked := desired.pairs.length, errors }).run h
          ((fetchParams cm conn).run h s).state).after ((fetchParams cm conn).run h s).events := by
  have hvalues : desired.params.values.isEmpty ≠ true := by
    intro hempty
    exact hne (List.isEmpty_iff.mp hempty)
  unfold syncParams
  simp only [hdesired, Program.run_bind, Program.run_ofExcept, Outcome.andThen_mk_ok,
    Outcome.after_nil, if_neg hvalues, Program.run_attempt, hfetch]
  rfl

/-- `sync_params` never raises. -/
theorem syncParams_returns (dryRun : Bool) :
    ∃ r, ((syncParams cm conn profiles dryRun).run h s).result = .ok r := by
  obtain ⟨desired, errors, hdesired⟩ := desiredParams_profile cm profiles
  by_cases hne : desired.pairs = []
  · rw [syncParams_empty conn profiles s dryRun hdesired hne]
    exact ⟨_, rfl⟩
  cases hfetch : ((fetchParams cm conn).run h s).result with
  | error exc =>
    rw [syncParams_unfetched conn profiles s dryRun hdesired hne hfetch]
    exact ⟨_, rfl⟩
  | ok full =>
    rw [syncParams_fetched conn profiles s dryRun hdesired hne hfetch, Outcome.after_result]
    by_cases hc : Current desired.params full
    · rw [syncDrift_current _ _ _ _ _ hc]
      exact ⟨_, rfl⟩
    cases dryRun with
    | false =>
      obtain ⟨drift, changed, -, hrun⟩ := syncDrift_drifted conn profiles
        { paramsChecked := desired.pairs.length, errors } ((fetchParams cm conn).run h s).state hc
      rw [hrun]
      exact ⟨_, rfl⟩
    | true =>
      obtain ⟨current, hcurrent, hlookup⟩ := currentSubset_lookup cm desired full
      have hdiff := (diffParams_isEmpty_iff_current hlookup).not.mpr hc
      unfold syncDrift
      simp [hcurrent, Program.run_bind, hdiff]

theorem SyncResult.ok_iff {r : SyncResult} : r.ok = true ↔ r.errors = [] := by
  simp [SyncResult.ok]

theorem mergeApply_ok {result synced : SyncResult} {o : Except PyError ApplyResult}
    (h : (mergeApply result synced o).ok = true) :
    synced.errors = [] ∧ ∃ applied, o = .ok applied ∧ applied.failures = [] := by
  rw [SyncResult.ok_iff] at h
  cases o with
  | error exc => simp [mergeApply] at h
  | ok applied =>
    simp only [mergeApply, List.append_eq_nil_iff, List.map_eq_nil_iff] at h
    exact ⟨h.1, applied, rfl, h.2⟩

/-- A run without an error: the profiles are all known, the parameters were fetched,
and they are as desired or what drifted was written without a failure. -/
theorem syncParams_ok {r : SyncResult}
    (hr : ((syncParams cm conn profiles false).run h s).result = .ok r) (hok : r.ok = true) :
    ∃ desired : Profile, desiredParams cm profiles = .ok (desired.params, []) ∧
      (desired.pairs = [] ∨ ∃ full, ((fetchParams cm conn).run h s).result = .ok full ∧
        (Current desired.params full ∨ ∃ drift : ParamSet, ∃ applied,
          driftOf cm desired.params full = .ok drift ∧
            ((applyParams cm conn drift true 2 3).run h
              ((fetchParams cm conn).run h s).state).result = .ok applied ∧
            applied.failures = [] ∧
            ((syncParams cm conn profiles false).run h s).events =
              ((fetchParams cm conn).run h s).events ++
                ((applyParams cm conn drift true 2 3).run h
                  ((fetchParams cm conn).run h s).state).events)) := by
  obtain ⟨desired, errors, hdesired⟩ := desiredParams_profile cm profiles
  by_cases hne : desired.pairs = []
  · rw [syncParams_empty conn profiles s false hdesired hne] at hr
    obtain rfl := Except.ok.inj hr
    rw [SyncResult.ok_iff] at hok
    exact ⟨desired, hok ▸ hdesired, .inl hne⟩
  cases hfetch : ((fetchParams cm conn).run h s).result with
  | error exc =>
    rw [syncParams_unfetched conn profiles s false hdesired hne hfetch] at hr
    obtain rfl := Except.ok.inj hr
    simp [SyncResult.ok] at hok
  | ok full =>
    rw [syncParams_fetched conn profiles s false hdesired hne hfetch] at hr ⊢
    by_cases hc : Current desired.params full
    · rw [syncDrift_current _ _ _ _ _ hc] at hr
      obtain rfl := Except.ok.inj hr
      rw [SyncResult.ok_iff] at hok
      exact ⟨desired, hok ▸ hdesired, .inr ⟨full, rfl, .inl hc⟩⟩
    · obtain ⟨drift, changed, hdrift, hrun⟩ := syncDrift_drifted conn profiles
        { paramsChecked := desired.pairs.length, errors } ((fetchParams cm conn).run h s).state hc
      rw [hrun] at hr ⊢
      obtain rfl := Except.ok.inj hr
      obtain ⟨herrors, applied, happlied, hfailures⟩ := mergeApply_ok hok
      exact ⟨desired, herrors ▸ hdesired, .inr ⟨full, rfl,
        .inr ⟨drift, applied, hdrift, happlied, hfailures, rfl⟩⟩⟩

theorem applyParams_of_not_drifted {drift : ParamSet}
    (hdrift : driftOf cm desired.params full = .ok drift)
    (hnone : ∀ k v, ¬ Drifted desired.params full k v) :
    (applyParams cm conn drift true 2 3).run h s = ⟨.ok {}, s, []⟩ := by
  have hvalues : drift.values = [] := by
    rw [List.eq_nil_iff_forall_not_mem]
    intro p hp
    exact hnone p.1 p.2 ((lookup_drift cm hdrift p.1 p.2).mp (ParamSet.lookup_eq_some.mpr hp))
  simp [applyParams, ParamSet.asSortedDict, hvalues, applyEach]

end Runs

end MowerRover.Pixhawk
