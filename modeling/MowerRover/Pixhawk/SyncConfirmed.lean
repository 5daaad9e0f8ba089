import MowerRover.Pixhawk.Sync

/-!
# What a sync has confirmed, and what a second one finds

A sync without an error has seen or written every desired parameter that was
fetched. It accepts an echo within the tolerance of the verification, which is
wider than the tolerance of the difference; whether a second sync finds
everything as desired depends on the echoes in between.
-/

namespace MowerRover.Pixhawk

open Effects Numeric Mavlink Params

variable (cm : CaseMap)

section Fence

/-- The safety defaults on the autopilot, with this value for the fence. -/
def fenceAt (value : PyFloat) : ParamSet := safetyProfile.params.insert "FENCE_ENABLE" value

/-- The autopilot sends its whole list, and after that one echo for the fence. -/
def fenceLink (value echo : PyFloat) : Link :=
  ⟨announcements (fenceAt value).values 6,
    streamTurns 6 ++ [⟨[], 0⟩, ⟨[], 1⟩, ⟨[.paramValue (.text "FENCE_ENABLE") echo 6], 0⟩]⟩

theorem desiredParams_safety :
    desiredParams .asciiOnly ["safety-defaults"] = .ok (safetyProfile.params, []) := rfl

theorem fenceAt_lookup (value : PyFloat) (k : String) :
    (fenceAt value).lookup k =
      if k = "FENCE_ENABLE" then some value else safetyProfile.params.lookup k :=
  ParamSet.lookup_insert _ _ _ _

theorem fetchParams_fence (value echo : PyFloat) :
    ∃ events, (fetchParams .asciiOnly ⟨1, 1⟩).run link (fenceLink value echo) =
      ⟨.ok (fenceAt value),
        ⟨[], [⟨[], 0⟩, ⟨[], 1⟩, ⟨[.paramValue (.text "FENCE_ENABLE") echo 6], 0⟩]⟩, events⟩ := by
  have hplain : (fenceAt value).Plain := by
    intro name hname
    rcases mem_setItem_names.mp hname with rfl | hname
    · decide
    · exact Profile.plain_of_mem_names hname
  have hne : (fenceAt value).values ≠ [] := by
    intro hnil
    have hfence := fenceAt_lookup value "FENCE_ENABLE"
    rw [if_pos rfl, ParamSet.lookup, hnil] at hfence
    simp at hfence
  exact fetchParams_stream .asciiOnly ⟨1, 1⟩ hplain hne _

theorem fence_drifted_iff (value : PyFloat) (k : String) (v : PyFloat) :
    Drifted safetyProfile.params (fenceAt value) k v ↔
      k = "FENCE_ENABLE" ∧ v = .fin 1 ∧ value.exceeds defaultTol (.fin 1) = true := by
  have hfence : safetyProfile.params.lookup "FENCE_ENABLE" = some (.fin 1) := rfl
  unfold Drifted
  rw [fenceAt_lookup]
  constructor
  · rintro ⟨hv, old, hold, hx⟩
    split_ifs at hold with hk
    · subst hk
      obtain rfl : PyFloat.fin 1 = v := Option.some.inj (hfence.symm.trans hv)
      obtain rfl := Option.some.inj hold
      exact ⟨rfl, rfl, hx⟩
    · obtain rfl : v = old := Option.some.inj (hv.symm.trans hold)
      rw [PyFloat.exceeds_self (by norm_num [defaultTol])] at hx
      simp at hx
  · rintro ⟨rfl, rfl, hx⟩
    exact ⟨hfence, value, if_pos rfl, hx⟩

/-- The one parameter that drifted is written, and its echo accepted. -/
theorem applyParams_fence {drift : ParamSet}
    (hdrift : ∀ k v, drift.lookup k = some v ↔ k = "FENCE_ENABLE" ∧ v = .fin 1) {echo : PyFloat}
    (hecho : echo.within verifyTol (.fin 1) = true) :
    ((applyParams .asciiOnly ⟨1, 1⟩ drift true 2 3).run link
      ⟨[], [⟨[], 0⟩, ⟨[], 1⟩, ⟨[.paramValue (.text "FENCE_ENABLE") echo 6], 0⟩]⟩).result =
        .ok { applied := [("FENCE_ENABLE", echo)] } := by
  have hmem : ∀ p, p ∈ drift.values ↔ p ∈ [("FENCE_ENABLE", PyFloat.fin 1)] := by
    rintro ⟨k, v⟩
    rw [← ParamSet.lookup_eq_some, hdrift]
    simp
  have hvalues : drift.values = [("FENCE_ENABLE", .fin 1)] :=
    List.perm_singleton.mp
      ((List.perm_ext_iff_of_nodup drift.nodup.of_map (List.nodup_singleton _)).mpr hmem)
  have hsend : ∀ encoded, (send ⟨1, 1⟩ (.paramSet encoded (.fin 1))).run link
      ⟨[], [⟨[], 0⟩, ⟨[], 1⟩, ⟨[.paramValue (.text "FENCE_ENABLE") echo 6], 0⟩]⟩ =
        ⟨.ok (), ⟨[], [⟨[], 1⟩, ⟨[.paramValue (.text "FENCE_ENABLE") echo 6], 0⟩]⟩,
          [.sent ⟨1, 1⟩ (.paramSet encoded (.fin 1))]⟩ := fun _ => rfl
  have hawait : (awaitParamEcho .asciiOnly "FENCE_ENABLE" 2).run link
      ⟨[], [⟨[], 1⟩, ⟨[.paramValue (.text "FENCE_ENABLE") echo 6], 0⟩]⟩ =
        ⟨.ok (some echo), ⟨[], []⟩, [.took (.paramValue (.text "FENCE_ENABLE") echo 6)]⟩ := rfl
  obtain ⟨encoded, hencoded⟩ := exists_ok_of_isOk
    (show (encodeName .asciiOnly "FENCE_ENABLE").isOk = true by decide +kernel)
  have hsorted : drift.asSortedDict = [("FENCE_ENABLE", .fin 1)] := by
    simp [ParamSet.asSortedDict, hvalues]
  simp [applyParams, hsorted, applyEach, hencoded, applyOne, Program.run_bind, hsend, hawait, hecho]

theorem driftOf_fence : ∃ drift,
    driftOf .asciiOnly safetyProfile.params (fenceAt (.fin 0)) = .ok drift ∧
      ∀ k v, drift.lookup k = some v ↔ k = "FENCE_ENABLE" ∧ v = .fin 1 := by
  obtain ⟨drift, hdrift, hlookup⟩ := driftOf_lookup .asciiOnly safetyProfile (fenceAt (.fin 0))
  refine ⟨drift, hdrift, fun k v => ?_⟩
  have hoff : PyFloat.exceeds defaultTol (.fin 0) (.fin 1) = true := by norm_num [defaultTol]
  simp [hlookup, fence_drifted_iff, hoff]

theorem syncParams_fence {echo : PyFloat} (hecho : echo.within verifyTol (.fin 1) = true) :
    ∃ r, ((syncParams .asciiOnly ⟨1, 1⟩ ["safety-defaults"] false).run link
      (fenceLink (.fin 0) echo)).result = .ok r ∧ r.ok = true := by
  obtain ⟨events, hfetch⟩ := fetchParams_fence (.fin 0) echo
  obtain ⟨drift, hdrift, hlookup⟩ := driftOf_fence
  have hc : ¬ Current safetyProfile.params (fenceAt (.fin 0)) := by
    intro hc
    apply hc.not_drifted
    exact (lookup_drift .asciiOnly hdrift _ _).mp ((hlookup _ _).mpr ⟨rfl, rfl⟩)
  rw [syncParams_fetched _ _ _ false desiredParams_safety (by decide) (by rw [hfetch])]
  obtain ⟨drift', changed, hdrift', hrun⟩ := syncDrift_drifted ⟨1, 1⟩ ["safety-defaults"]
    { paramsChecked := safetyProfile.pairs.length } ((fetchParams .asciiOnly ⟨1, 1⟩).run link
      (fenceLink (.fin 0) echo)).state hc
  obtain rfl : drift = drift' := Except.ok.inj (hdrift.symm.trans hdrift')
  rw [hrun]
  refine ⟨_, rfl, ?_⟩
  rw [hfetch, applyParams_fence hlookup hecho]
  rfl

end Fence

/-- The parameter was announced in this run with a value that does not differ from
the desired one, or it was written and echoed. -/
inductive Confirmed (conn : Conn) (fetched : ParamSet) (name : String) (value : PyFloat)
    (events : List LinkEvent) : Prop
  | seen {n v} : fetched.lookup name = some v → normalizeName cm n = .ok name →
      Announced cm n v events → v = .nan ∨ v.within defaultTol value = true →
        Confirmed conn fetched name value events
  | written {echo} : Written cm conn name value echo events →
      Confirmed conn fetched name value events

/-- A sync without an error has seen or written every desired parameter that
`fetch_params` collected. -/
theorem syncParams_confirms (conn : Conn) (profiles : List String) (s : Link) (r : SyncResult)
    (hr : ((syncParams cm conn profiles false).run link s).result = .ok r) (hok : r.ok = true) :
    ∃ desired, desiredParams cm profiles = .ok (desired, []) ∧
      ∀ name value, desired.lookup name = some value →
        ∃ fetched, ((fetchParams cm conn).run link s).result = .ok fetched ∧
          (fetched.lookup name = none ∨ Confirmed cm conn fetched name value
            ((syncParams cm conn profiles false).run link s).events) := by
  obtain ⟨desired, hdesired, hrun⟩ := syncParams_ok conn profiles s hr hok
  refine ⟨desired.params, hdesired, fun name value hvalue => ?_⟩
  rcases hrun with hempty | ⟨full, hfetch, hrun⟩
  · simp [Profile.params, ParamSet.lookup, hempty] at hvalue
  refine ⟨full, hfetch, ?_⟩
  have hne : desired.pairs ≠ [] := by
    intro hempty
    simp [Profile.params, ParamSet.lookup, hempty] at hvalue
  cases hv : full.lookup name with
  | none => exact .inl rfl
  | some v =>
    right
    by_cases hx : v.exceeds defaultTol value = true
    · have hdrifted : Drifted desired.params full name value := ⟨hvalue, v, hv, hx⟩
      rcases hrun with hc | ⟨drift, applied, hdrift, happlied, hfailures, hevents⟩
      · exact absurd hdrifted hc.not_drifted
      · have hmem := ParamSet.lookup_eq_some.mp ((lookup_drift cm hdrift name value).mpr hdrifted)
        obtain ⟨hwritten, hall⟩ := applyParams_run isLink_link happlied hfailures
        obtain ⟨echo, hecho⟩ := hall _ hmem
        obtain ⟨value', hvalue', hw⟩ := hwritten _ hecho
        obtain rfl : value = value' := Option.some.inj
          ((ParamSet.lookup_eq_some.mpr hmem).symm.trans (ParamSet.lookup_eq_some.mpr hvalue'))
        rw [hevents]
        exact .written (hw.after _)
    · have hclose := PyFloat.within_of_not_exceeds (Profile.finite_of_lookup hvalue)
        (Bool.not_eq_true _ ▸ hx)
      obtain ⟨n, hn, ha⟩ := fetchParams_lookup isLink_link hfetch hv
      refine .seen hv hn (ha.mono ?_) hclose
      rw [syncParams_fetched conn profiles s false hdesired hne hfetch]
      exact List.subset_append_left _ _

/-- The fence is written back, the other defaults are seen as they should be. -/
theorem syncParams_confirms_fence :
    let o := (syncParams .asciiOnly ⟨1, 1⟩ ["safety-defaults"] false).run link
      (fenceLink (.fin 0) (.fin 1))
    ∃ r, o.result = .ok r ∧ r.ok = true ∧
      ∃ desired, desiredParams .asciiOnly ["safety-defaults"] = .ok (desired, []) ∧
        ∀ name value, desired.lookup name = some value →
          ∃ fetched, ((fetchParams .asciiOnly ⟨1, 1⟩).run link
              (fenceLink (.fin 0) (.fin 1))).result = .ok fetched ∧
            (fetched.lookup name = none ∨
              Confirmed .asciiOnly ⟨1, 1⟩ fetched name value o.events) := by
  intro o
  obtain ⟨r, hr, hok⟩ : ∃ r, o.result = .ok r ∧ r.ok = true := syncParams_fence (by decide +kernel)
  exact ⟨r, hr, hok, syncParams_confirms .asciiOnly ⟨1, 1⟩ _ _ r hr hok⟩

/-- An autopilot that is never heard. -/
theorem syncParams_run_silent :
    ∃ r, (syncParams .asciiOnly ⟨1, 1⟩ ["safety-defaults"] false).run link ⟨[], []⟩ =
      ⟨.ok r, ⟨[], []⟩, [.sent ⟨1, 1⟩ requestList]⟩ ∧ r.errors = [] := by
  have hfetch : (fetchParams .asciiOnly ⟨1, 1⟩).run link ⟨[], []⟩ =
      ⟨.ok .empty, ⟨[], []⟩, [.sent ⟨1, 1⟩ requestList]⟩ := rfl
  have hempty : ∀ k, ParamSet.empty.lookup k = none := fun _ => rfl
  have hnone : ∀ k v, ¬ Drifted safetyProfile.params .empty k v := by
    rintro k v ⟨-, old, hold, -⟩
    simp [hempty] at hold
  have hc : ¬ Current safetyProfile.params .empty := by
    intro hc
    obtain ⟨old, hold, -⟩ := hc "FENCE_ENABLE" (.fin 1) rfl
    simp [hempty] at hold
  have hrun := syncParams_fetched ⟨1, 1⟩ ["safety-defaults"] (⟨[], []⟩ : Link) false
    desiredParams_safety (by decide) (by rw [hfetch])
  obtain ⟨drift, changed, hdrift, hdrifted⟩ := syncDrift_drifted ⟨1, 1⟩ ["safety-defaults"]
    { paramsChecked := safetyProfile.pairs.length } (⟨[], []⟩ : Link) hc
  rw [hfetch, hdrifted, applyParams_of_not_drifted _ _ hdrift hnone] at hrun
  exact ⟨_, hrun, rfl⟩

/-- Nothing is heard and nothing is written, and no error is reported. -/
theorem syncParams_silent :
    let o := (syncParams .asciiOnly ⟨1, 1⟩ ["safety-defaults"] false).run link ⟨[], []⟩
    (∃ r, o.result = .ok r ∧ r.ok = true) ∧
      (∃ desired, desiredParams .asciiOnly ["safety-defaults"] = .ok (desired, []) ∧
        desired.lookup "FENCE_ENABLE" = some (.fin 1)) ∧
      takenMsgs o.events = [] ∧ sentMsgs o.events = [requestList] := by
  obtain ⟨r, hrun, hok⟩ := syncParams_run_silent
  simp only [hrun]
  exact ⟨⟨r, rfl, SyncResult.ok_iff.mpr hok⟩, ⟨_, desiredParams_safety, rfl⟩, rfl, rfl⟩

/-- The values that `apply_params` reports as applied when it writes the drift: the
echoes it accepted. -/
def acceptedEchoes (conn : Conn) (desired fetched : ParamSet) (s : Link) : List
    (String × PyFloat) :=
  match driftOf cm desired fetched with
  | .error _ => []
  | .ok drift =>
    match ((applyParams cm conn drift true 2 3).run link s).result with
    | .error _ => []
    | .ok applied => applied.applied

/-- A sync that went well on an autopilot that had every desired parameter, and what the
autopilot reports from then on: the echoes for what was written, the old values for
the rest. -/
structure SyncedOnce (conn : Conn) (profiles : List String) (s : Link)
    (desired before after : ParamSet) (echoed : String → PyFloat) : Prop where
  combined : desiredParams cm profiles = .ok (desired, [])
  fetched : ((fetchParams cm conn).run link s).result = .ok before
  complete : ∀ name value, desired.lookup name = some value → before.lookup name ≠ none
  ok : ∃ r, ((syncParams cm conn profiles false).run link s).result = .ok r ∧ r.ok = true
  echoes : ∀ p ∈ acceptedEchoes cm conn desired before ((fetchParams cm conn).run link s).state,
    p.2 = echoed p.1
  reports : ∀ name, after.lookup name =
    ((acceptedEchoes cm conn desired before ((fetchParams cm conn).run link s).state).lookup
      name).or (before.lookup name)

section Twice

variable {cm} {conn : Conn} {profiles : List String} {s : Link} {desired : Profile}
  {before after : ParamSet} {echoed : String → PyFloat}

theorem acceptedEchoes_eq_nil (h : ∀ k v, ¬ Drifted desired.params before k v) (s : Link) :
    acceptedEchoes cm conn desired.params before s = [] := by
  obtain ⟨drift, hdrift, -⟩ := driftOf_lookup cm desired before
  simp [acceptedEchoes, hdrift, applyParams_of_not_drifted conn s hdrift h]

/-- What was accepted is what drifted. -/
theorem acceptedEchoes_names (hdesired : desiredParams cm profiles = .ok (desired.params, []))
    (hfetch : ((fetchParams cm conn).run link s).result = .ok before)
    (hok : ∃ r, ((syncParams cm conn profiles false).run link s).result = .ok r ∧ r.ok = true)
    (name : String) :
    name ∈ (acceptedEchoes cm conn desired.params before
        ((fetchParams cm conn).run link s).state).map Prod.fst ↔
      ∃ value, Drifted desired.params before name value := by
  have hnil : (∀ k v, ¬ Drifted desired.params before k v) →
      (name ∈ (acceptedEchoes cm conn desired.params before
        ((fetchParams cm conn).run link s).state).map Prod.fst ↔
          ∃ value, Drifted desired.params before name value) := by
    intro h
    simp [acceptedEchoes_eq_nil h, h]
  obtain ⟨r, hr, hr'⟩ := hok
  obtain ⟨desired', hdesired', hrun⟩ := syncParams_ok conn profiles s hr hr'
  have hparams : desired'.params = desired.params :=
    congrArg Prod.fst (Except.ok.inj (hdesired'.symm.trans hdesired))
  rcases hrun with hempty | ⟨full, hfull, hrun⟩
  · apply hnil
    rintro k v ⟨hv, -⟩
    rw [← hparams] at hv
    simp [Profile.params, ParamSet.lookup, hempty] at hv
  obtain rfl : full = before := Except.ok.inj (hfull.symm.trans hfetch)
  rcases hrun with hc | ⟨drift, applied, hdrift, happlied, hfailures, -⟩
  · apply hnil
    intro k v
    rw [← hparams]
    exact hc.not_drifted
  rw [hparams] at hdrift
  have haccepted : acceptedEchoes cm conn desired.params full
      ((fetchParams cm conn).run link s).state = applied.applied := by
    simp [acceptedEchoes, hdrift, happlied]
  obtain ⟨hwritten, hall⟩ := applyParams_run isLink_link happlied hfailures
  rw [haccepted]
  constructor
  · intro hmem
    obtain ⟨p, hp, rfl⟩ := List.mem_map.mp hmem
    obtain ⟨value, hvalue, -⟩ := hwritten p hp
    exact ⟨value, (lookup_drift cm hdrift _ _).mp (ParamSet.lookup_eq_some.mpr hvalue)⟩
  · rintro ⟨value, hdrifted⟩
    obtain ⟨echo, hecho⟩ :=
      hall _ (ParamSet.lookup_eq_some.mp ((lookup_drift cm hdrift _ _).mpr hdrifted))
    exact List.mem_map.mpr ⟨_, hecho, rfl⟩

theorem SyncedOnce.lookup_drifted
    (once : SyncedOnce cm conn profiles s desired.params before after echoed) {name : String}
    {value : PyFloat} (h : Drifted desired.params before name value) :
    after.lookup name = some (echoed name) := by
  have hmem := (acceptedEchoes_names once.combined once.fetched once.ok name).mpr ⟨value, h⟩
  rw [once.reports name]
  cases hecho : (acceptedEchoes cm conn desired.params before
      ((fetchParams cm conn).run link s).state).lookup name with
  | none => exact absurd hmem (lookup_eq_none_iff.mp hecho)
  | some echo =>
    have hechoed : echo = echoed name := once.echoes _ (mem_of_lookup hecho)
    rw [Option.some_or, hechoed]

theorem SyncedOnce.lookup_kept
    (once : SyncedOnce cm conn profiles s desired.params before after echoed) {name : String}
    (h : ∀ value, ¬ Drifted desired.params before name value) :
    after.lookup name = before.lookup name := by
  have hmem := (acceptedEchoes_names once.combined once.fetched once.ok name).not.mpr
    (by simpa using h)
  rw [once.reports name, lookup_eq_none_iff.mpr hmem, Option.none_or]

/-- The second sync finds everything as desired exactly when the echoes are. -/
theorem SyncedOnce.current_iff
    (once : SyncedOnce cm conn profiles s desired.params before after echoed) :
    Current desired.params after ↔ ∀ name value, Drifted desired.params before name value →
      (echoed name).exceeds defaultTol value = false := by
  constructor
  · intro hc name value hdrifted
    obtain ⟨old, hold, hclose⟩ := hc name value hdrifted.1
    rw [once.lookup_drifted hdrifted] at hold
    rwa [Option.some.inj hold]
  · intro hechoes name value hvalue
    by_cases hdrifted : Drifted desired.params before name value
    · exact ⟨echoed name, once.lookup_drifted hdrifted, hechoes name value hdrifted⟩
    · obtain ⟨old, hold⟩ := Option.ne_none_iff_exists'.mp (once.complete name value hvalue)
      have hkept : after.lookup name = before.lookup name := by
        apply once.lookup_kept
        intro value' hdrifted'
        obtain rfl : value = value' := Option.some.inj (hvalue.symm.trans hdrifted'.1)
        exact hdrifted hdrifted'
      refine ⟨old, hkept.trans hold, ?_⟩
      by_contra hx
      exact hdrifted ⟨hvalue, old, hold, Bool.not_eq_false _ ▸ hx⟩

/-- A run that reports the parameters as current has sent none; every other run
reports that they are not. -/
theorem syncParams_current_iff (hdesired : desiredParams cm profiles = .ok (desired.params, []))
    (hfetch : ((fetchParams cm conn).run link s).result = .ok after) :
    ((∀ encoded value, Msg.paramSet encoded value ∉
        sentMsgs ((syncParams cm conn profiles false).run link s).events) ∧
      ∃ r, ((syncParams cm conn profiles false).run link s).result = .ok r ∧
        r.paramsAlreadyCurrent = true) ↔ Current desired.params after := by
  by_cases hne : desired.pairs = []
  · have hrun := syncParams_empty (h := link) conn profiles s false hdesired hne
    have hc : Current desired.params after := by
      intro name value hvalue
      simp [Profile.params, ParamSet.lookup, hne] at hvalue
    simp [hrun, hc]
  rw [syncParams_fetched conn profiles s false hdesired hne hfetch]
  by_cases hc : Current desired.params after
  · rw [syncDrift_current _ _ _ _ _ hc]
    refine ⟨fun _ => hc, fun _ => ⟨?_, _, rfl, rfl⟩⟩
    intro encoded value hmem
    rw [Outcome.after_events, List.append_nil] at hmem
    have := sentMsgs_of_calls isLink_link (calls_fetchParams cm conn) s _ hmem
    simp [requestList] at this
  · refine ⟨?_, fun h => absurd h hc⟩
    rintro ⟨-, r, hr, hcurrent⟩
    obtain ⟨drift, changed, -, hrun⟩ := syncDrift_drifted conn profiles
      { paramsChecked := desired.pairs.length } ((fetchParams cm conn).run link s).state hc
    rw [hrun] at hr
    obtain rfl := Except.ok.inj hr
    revert hcurrent
    generalize ((applyParams cm conn drift true 2 3).run link _).result = applied
    cases applied <;> simp [mergeApply]

end Twice

/-- After a sync that went well, a second one writes nothing and reports the parameters
as current exactly when every echo of a written parameter is within the tolerance of
the difference, and not only within that of the verification. -/
theorem syncParams_idempotent_iff (conn : Conn) (profiles : List String) (s s' : Link)
    (desired before after : ParamSet) (echoed : String → PyFloat)
    (once : SyncedOnce cm conn profiles s desired before after echoed)
    (hfetch : ((fetchParams cm conn).run link s').result = .ok after) :
    ((∀ encoded value, Msg.paramSet encoded value ∉
        sentMsgs ((syncParams cm conn profiles false).run link s').events) ∧
      ∃ r, ((syncParams cm conn profiles false).run link s').result = .ok r ∧
        r.paramsAlreadyCurrent = true) ↔
      ∀ name value, Drifted desired before name value →
        (echoed name).exceeds defaultTol value = false := by
  obtain ⟨profile, errors, hdesired⟩ := desiredParams_profile cm profiles
  obtain ⟨rfl, rfl⟩ : profile.params = desired ∧ errors = [] := by
    simpa using hdesired.symm.trans once.combined
  rw [syncParams_current_iff hdesired hfetch, once.current_iff]

/-- The fence was off, it was written, and the autopilot keeps the value it echoed. -/
theorem syncedOnce_fence {echo : PyFloat} (hecho : echo.within verifyTol (.fin 1) = true) :
    SyncedOnce .asciiOnly ⟨1, 1⟩ ["safety-defaults"] (fenceLink (.fin 0) echo)
      safetyProfile.params (fenceAt (.fin 0)) (fenceAt echo) fun _ => echo := by
  obtain ⟨events, hfetch⟩ := fetchParams_fence (.fin 0) echo
  obtain ⟨drift, hdrift, hlookup⟩ := driftOf_fence
  have haccepted : acceptedEchoes .asciiOnly ⟨1, 1⟩ safetyProfile.params (fenceAt (.fin 0))
      ((fetchParams .asciiOnly ⟨1, 1⟩).run link (fenceLink (.fin 0) echo)).state =
        [("FENCE_ENABLE", echo)] := by
    simp only [acceptedEchoes, hdrift, hfetch, applyParams_fence hlookup hecho]
  refine ⟨desiredParams_safety, by rw [hfetch], ?_, syncParams_fence hecho, ?_, ?_⟩
  · intro name value hvalue
    rw [fenceAt_lookup]
    split_ifs
    · simp
    · simp [hvalue]
  · simp [haccepted]
  · intro name
    rw [haccepted, fenceAt_lookup, fenceAt_lookup]
    by_cases hname : name = "FENCE_ENABLE"
    · simp [hname]
    · simp [List.lookup_cons, beq_false_of_ne hname, hname]

/-- The autopilot keeps exactly what was written. -/
theorem syncParams_idempotent_fence :
    SyncedOnce .asciiOnly ⟨1, 1⟩ ["safety-defaults"] (fenceLink (.fin 0) (.fin 1))
        safetyProfile.params (fenceAt (.fin 0)) (fenceAt (.fin 1)) (fun _ => .fin 1) ∧
      ∃ r, ((syncParams .asciiOnly ⟨1, 1⟩ ["safety-defaults"] false).run link
        (fenceLink (.fin 1) (.fin 1))).result = .ok r ∧ r.paramsAlreadyCurrent = true := by
  obtain ⟨events, hfetch⟩ := fetchParams_fence (.fin 1) (.fin 1)
  have hone : PyFloat.within verifyTol (.fin 1) (.fin 1) = true := by decide +kernel
  have once := syncedOnce_fence hone
  refine ⟨once, ?_⟩
  have hiff := syncParams_idempotent_iff .asciiOnly ⟨1, 1⟩ _ _ (fenceLink (.fin 1) (.fin 1)) _ _ _ _
    once (by rw [hfetch])
  apply (hiff.mpr _).2
  intro name value hdrifted
  rw [((fence_drifted_iff _ _ _).mp hdrifted).2.1]
  exact PyFloat.exceeds_self (by norm_num [defaultTol]) _

/-- A single-precision number next to one, closer than the tolerance of the
verification and not as close as that of the difference. -/
def nearlyOne : PyFloat := .fin (1 + 1 / 2 ^ 15)

/-- The verification accepts an echo that the next difference reports as drift. -/
theorem syncParams_not_idempotent :
    SyncedOnce .asciiOnly ⟨1, 1⟩ ["safety-defaults"] (fenceLink (.fin 0) nearlyOne)
        safetyProfile.params (fenceAt (.fin 0)) (fenceAt nearlyOne) (fun _ => nearlyOne) ∧
      ((fetchParams .asciiOnly ⟨1, 1⟩).run link (fenceLink nearlyOne nearlyOne)).result =
        .ok (fenceAt nearlyOne) ∧
      ¬ ((∀ encoded value, Msg.paramSet encoded value ∉
          sentMsgs ((syncParams .asciiOnly ⟨1, 1⟩ ["safety-defaults"] false).run link
            (fenceLink nearlyOne nearlyOne)).events) ∧
        ∃ r, ((syncParams .asciiOnly ⟨1, 1⟩ ["safety-defaults"] false).run link
          (fenceLink nearlyOne nearlyOne)).result = .ok r ∧ r.paramsAlreadyCurrent = true) := by
  obtain ⟨events, hfetch⟩ := fetchParams_fence nearlyOne nearlyOne
  have hresult : ((fetchParams .asciiOnly ⟨1, 1⟩).run link (fenceLink nearlyOne nearlyOne)).result =
      .ok (fenceAt nearlyOne) := by rw [hfetch]
  refine ⟨syncedOnce_fence (by decide +kernel), hresult, ?_⟩
  rw [syncParams_current_iff desiredParams_safety hresult]
  intro hc
  apply hc.not_drifted
  exact (fence_drifted_iff nearlyOne _ _).mpr ⟨rfl, rfl, by decide +kernel⟩

end MowerRover.Pixhawk
