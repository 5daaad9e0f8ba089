import MowerRover.Effects.Trace
import MowerRover.Probe.Registry

/-!
# Running the probe checks

The checks run in dependency order, and a check is skipped when one it depends
on has failed or was itself skipped. What the check functions answer is up to
the surroundings; the order in which Python goes through a set is arbitrary.
-/

namespace MowerRover.Probe

open Effects MowerRover.Graph Relation

/-- The call of the function registered under a name. -/
structure CheckCall where
  name : String
  sysroot : String
  deriving DecidableEq, Repr

/-- A check answers with a verdict and a detail, or raises an exception. -/
abbrev CheckCalls : Signature := ⟨CheckCall, fun _ => Except PyError (Bool × String)⟩

/-- An order in which the elements of a set are visited. -/
structure SetOrder where
  list : Finset String → List String
  nodup : ∀ names, (list names).Nodup
  mem : ∀ names name, name ∈ list names ↔ name ∈ names

/-- The names in `only` with everything they depend on. -/
def needed (registry : Registry) (only : List String) : Finset String :=
  only.foldl
    (collect (dependencies registry) ((only ++ occurring registry).length + 1)) ∅

/-- The checks to consider; the names of `only` come in any order. -/
def selectedSpecs (setOrder : SetOrder) (registry : Registry) : Option (List String) → Registry
  | some only => registry.restrict (setOrder.list (needed registry only))
  | none => registry

/-- What a check function has answered, an exception taken for a failure. -/
def verdict : Except PyError (Bool × String) → Bool × String
  | .ok answer => answer
  | .error exc => (false, s!"Unexpected error: {exc.str}")

def keyError (name : String) : PyError := .other (strRepr name)

def skippedResult (name : String) (spec : CheckSpec) (depsFailed : List String) : CheckResult :=
  let failed := ", ".intercalate depsFailed
  ⟨name, .skip, spec.severity, s!"Skipped — dependency failed: {failed}"⟩

def checkResult (name : String) (spec : CheckSpec) (answer : Except PyError (Bool × String)) :
    CheckResult :=
  ⟨name, if (verdict answer).1 then .pass else .fail, spec.severity, (verdict answer).2⟩

/-- The loop over the ordered names. -/
def executeAll (specs : Registry) (sysroot : String) : List String → List CheckResult →
    Finset String → Program CheckCalls PyError (List CheckResult)
  | [], results, _ => pure results
  | name :: rest, results, failedNames =>
    match specs.get? name with
    | none => throw (keyError name)
    | some spec =>
      let depsFailed := spec.dependsOn.filter (· ∈ failedNames)
      if depsFailed ≠ [] then
        executeAll specs sysroot rest (results ++ [skippedResult name spec depsFailed])
          (insert name failedNames)
      else do
        let answer ← Program.perform (S := CheckCalls) ⟨name, sysroot⟩
        executeAll specs sysroot rest (results ++ [checkResult name spec answer])
          (if (verdict answer).1 then failedNames else insert name failedNames)

def runChecks (setOrder : SetOrder) (registry : Registry) (sysroot : String)
    (only : Option (List String)) : Program CheckCalls PyError (List CheckResult) := do
  let specs := selectedSpecs setOrder registry only
  let ordered ← Program.ofExcept (resolveOrder specs)
  executeAll specs sysroot ordered [] ∅

def deriveExitCode (results : List CheckResult) : ℕ :=
  let hasCritical := results.any fun r =>
    (r.status == .fail || r.status == .skip) && r.severity == .critical
  let hasWarning := results.any fun r =>
    (r.status == .fail || r.status == .skip) && r.severity == .warning
  if hasCritical then 2
  else if hasWarning then 1
  else 0

/-- The check is registered, and asked for or needed by one that is. -/
def Selected (registry : Registry) (only : Option (List String)) (name : String) : Prop :=
  name ∈ registry.keys ∧
    ∀ asked, only = some asked → ∃ r ∈ asked, ReflTransGen (Needs registry) r name

section Selected

variable {setOrder : SetOrder} {registry : Registry} {only : Option (List String)}

theorem mem_needed {only : List String} {name : String} :
    name ∈ needed registry only ↔ ∃ r ∈ only, ReflTransGen (Needs registry) r name := by
  refine mem_foldl_collect (only ++ occurring registry).toFinset ?_ ?_ ?_ name
  · intro r hr
    exact List.mem_toFinset.mpr (List.mem_append_left _ hr)
  · intro a _ b hb
    exact List.mem_toFinset.mpr (List.mem_append_right _ (mem_occurring_of_needs hb))
  · exact Nat.lt_succ_of_le (List.toFinset_card_le _)

theorem mem_selectedSpecs {name : String} :
    name ∈ (selectedSpecs setOrder registry only).keys ↔ Selected registry only name := by
  cases only with
  | none => simp [selectedSpecs, Selected]
  | some asked =>
    simp only [selectedSpecs, Dict.mem_keys_restrict, setOrder.mem, mem_needed, Selected,
      Option.some.injEq, forall_eq']
    exact and_comm

theorem get?_selectedSpecs {name : String} (h : Selected registry only name) :
    (selectedSpecs setOrder registry only).get? name = registry.get? name := by
  cases only with
  | none => rfl
  | some asked =>
    obtain ⟨-, hreach⟩ := h
    rw [selectedSpecs, Dict.get?_restrict, if_pos]
    exact (setOrder.mem _ _).mpr (mem_needed.mpr (hreach asked rfl))

theorem dependencies_selectedSpecs {name : String} (h : Selected registry only name) :
    dependencies (selectedSpecs setOrder registry only) name = dependencies registry name := by
  rw [dependencies, dependencies, get?_selectedSpecs h]

theorem needs_of_selectedSpecs {a b : String}
    (h : Needs (selectedSpecs setOrder registry only) a b) :
    Selected registry only a ∧ Needs registry a b := by
  have ha : Selected registry only a := mem_selectedSpecs.mp (Needs.registered h)
  refine ⟨ha, ?_⟩
  unfold Needs Edge at h ⊢
  rwa [dependencies_selectedSpecs ha] at h

theorem Selected.dependency {a b : String} (ha : Selected registry only a)
    (hab : Needs registry a b) (hb : b ∈ registry.keys) : Selected registry only b := by
  refine ⟨hb, fun asked hasked => ?_⟩
  obtain ⟨r, hr, hra⟩ := ha.2 asked hasked
  exact ⟨r, hr, hra.tail hab⟩

theorem selectedSpecs_acyclic (h : ¬ Cyclic registry) :
    ¬ Cyclic (selectedSpecs setOrder registry only) := by
  rw [cyclic_iff] at h ⊢
  rintro ⟨name, hcycle⟩
  exact h ⟨name, TransGen.mono (fun _ _ hab => (needs_of_selectedSpecs hab).2) _ _ hcycle⟩

/-- The execution order holds the selected checks and their unregistered dependencies. -/
theorem mem_order_iff {order : List String}
    (h : resolveOrder (selectedSpecs setOrder registry only) = .ok order) {name : String} :
    name ∈ order ↔ Selected registry only name ∨
      name ∉ registry.keys ∧ ∃ a, Selected registry only a ∧ Needs registry a name := by
  rw [(resolveOrder_ok h).2.2 name]
  constructor
  · rintro ⟨r, hr, hreach⟩
    rcases ReflTransGen.cases_tail hreach with rfl | ⟨a, -, hab⟩
    · exact .inl (mem_selectedSpecs.mp hr)
    · obtain ⟨ha, hneeds⟩ := needs_of_selectedSpecs hab
      by_cases hname : name ∈ registry.keys
      · exact .inl (ha.dependency hneeds hname)
      · exact .inr ⟨hname, a, ha, hneeds⟩
  · rintro (hname | ⟨-, a, ha, hneeds⟩)
    · exact ⟨name, mem_selectedSpecs.mpr hname, .refl⟩
    · refine ⟨a, mem_selectedSpecs.mpr ha, .single ?_⟩
      unfold Needs Edge
      rwa [dependencies_selectedSpecs ha]

end Selected

/-- The check was called. -/
def Called (calls : List (Call CheckCalls)) (name : String) : Prop :=
  ∃ c ∈ calls, c.1.name = name

/-- The check function returned a true verdict; it did not raise. -/
def IsPass (answer : Except PyError (Bool × String)) : Prop := ∃ detail, answer = .ok (true, detail)

/-- The check was called and passed. -/
def Passed (calls : List (Call CheckCalls)) (name : String) : Prop :=
  ∃ c ∈ calls, c.1.name = name ∧ IsPass c.2

theorem verdict_iff {answer : Except PyError (Bool × String)} :
    (verdict answer).1 = true ↔ IsPass answer := by
  cases answer with
  | ok answer =>
    obtain ⟨passed, detail⟩ := answer
    simp [verdict, IsPass]
  | error exc => simp [verdict, IsPass]

/-- The result tells what became of the check. -/
structure Judged (specs : Registry) (calls : List (Call CheckCalls)) (r : CheckResult) : Prop where
  severity : (specs.get? r.name).map (·.severity) = some r.severity
  called_iff : Called calls r.name ↔ ∀ dep ∈ dependencies specs r.name, Passed calls dep
  answered : ∀ c ∈ calls, c.1.name = r.name →
    r.status = (if (verdict c.2).1 then .pass else .fail) ∧ r.detail = (verdict c.2).2
  skipped : ¬ Called calls r.name → r.status = .skip

/-- The state of the loop when it has come through the names in `done`. -/
structure Executed (specs : Registry) (sysroot : String) (o : Oracle CheckCalls)
    (done : List String) (results : List CheckResult) (failedNames : Finset String)
    (calls : List (Call CheckCalls)) : Prop where
  names : results.map (·.name) = done
  once : (calls.map fun c => c.1.name).Nodup
  called : ∀ c ∈ calls, c.1.name ∈ done ∧ c.1.sysroot = sysroot
  oracle : ∀ c ∈ calls, ∃ earlier, c.2 = o earlier c.1
  failed_iff : ∀ name, name ∈ failedNames ↔ name ∈ done ∧ ¬ Passed calls name
  judged : ∀ r ∈ results, Judged specs calls r

section Calls

variable {calls : List (Call CheckCalls)} {c : Call CheckCalls} {name : String}

theorem called_cons : Called (c :: calls) name ↔ c.1.name = name ∨ Called calls name := by
  simp [Called]

theorem passed_cons : Passed (c :: calls) name ↔
    (c.1.name = name ∧ (verdict c.2).1 = true) ∨ Passed calls name := by
  simp [Passed, verdict_iff]

theorem called_of_passed (h : Passed calls name) : Called calls name := by
  obtain ⟨c, hc, hname, -⟩ := h
  exact ⟨c, hc, hname⟩

theorem passed_cons_of_ne (h : name ≠ c.1.name) : Passed (c :: calls) name ↔ Passed calls name := by
  simp [passed_cons, Ne.symm h]

theorem called_cons_of_ne (h : name ≠ c.1.name) : Called (c :: calls) name ↔ Called calls name := by
  simp [called_cons, Ne.symm h]

end Calls

namespace Judged

variable {specs : Registry} {calls : List (Call CheckCalls)} {r : CheckResult}

theorem cons (h : Judged specs calls r) {c : Call CheckCalls} (hname : r.name ≠ c.1.name)
    (hdeps : ∀ dep ∈ dependencies specs r.name, dep ≠ c.1.name) : Judged specs (c :: calls) r where
  severity := h.severity
  called_iff := by
    rw [called_cons_of_ne hname, h.called_iff]
    exact forall₂_congr fun dep hdep => (passed_cons_of_ne (hdeps dep hdep)).symm
  answered := by
    intro d hd hdname
    rcases List.mem_cons.mp hd with rfl | hd
    · exact absurd hdname.symm hname
    · exact h.answered d hd hdname
  skipped := by
    rw [called_cons_of_ne hname]
    exact h.skipped

theorem passed_iff (h : Judged specs calls r) : r.status = .pass ↔ Passed calls r.name := by
  constructor
  · intro hpass
    have hcalled : Called calls r.name := by
      by_contra hnot
      rw [h.skipped hnot] at hpass
      cases hpass
    obtain ⟨c, hc, hname⟩ := hcalled
    refine ⟨c, hc, hname, verdict_iff.mp ?_⟩
    rw [(h.answered c hc hname).1] at hpass
    by_contra hv
    simp [hv] at hpass
  · rintro ⟨c, hc, hname, hv⟩
    rw [(h.answered c hc hname).1, if_pos (verdict_iff.mpr hv)]

end Judged

namespace Executed

variable {specs : Registry} {sysroot : String} {o : Oracle CheckCalls} {done : List String}
  {results : List CheckResult} {failedNames : Finset String} {calls : List (Call CheckCalls)}
  {name : String} {spec : CheckSpec}

theorem start : Executed specs sysroot o [] [] ∅ [] where
  names := rfl
  once := List.nodup_nil
  called := by simp
  oracle := by simp
  failed_iff := by simp
  judged := by simp

theorem not_called (h : Executed specs sysroot o done results failedNames calls)
    (hname : name ∉ done) : ¬ Called calls name := by
  rintro ⟨c, hc, rfl⟩
  exact hname (h.called c hc).1

theorem result_mem (h : Executed specs sysroot o done results failedNames calls) {r : CheckResult}
    (hr : r ∈ results) : r.name ∈ done := by
  rw [← h.names]
  exact List.mem_map_of_mem hr

/-- The step that skips a check. -/
theorem skip (h : Executed specs sysroot o done results failedNames calls)
    (hspec : specs.get? name = some spec) (hname : name ∉ done)
    (hfailed : spec.dependsOn.filter (· ∈ failedNames) ≠ []) :
    Executed specs sysroot o (done ++ [name])
      (results ++ [skippedResult name spec (spec.dependsOn.filter (· ∈ failedNames))])
      (insert name failedNames) calls where
  names := by simp [h.names, skippedResult]
  once := h.once
  called := fun c hc => ⟨List.mem_append_left _ (h.called c hc).1, (h.called c hc).2⟩
  oracle := h.oracle
  failed_iff := by
    intro a
    have hnot : ¬ Passed calls name := fun hp => h.not_called hname (called_of_passed hp)
    by_cases ha : a = name
    · simp [ha, hnot]
    · simp [ha, h.failed_iff]
  judged := by
    intro r hr
    rcases List.mem_append.mp hr with hr | hr
    · exact h.judged r hr
    · obtain rfl := List.mem_singleton.mp hr
      refine ⟨by simp [skippedResult, hspec], ?_, ?_, fun _ => rfl⟩
      · refine iff_of_false (h.not_called hname) fun hall => ?_
        obtain ⟨dep, hdep⟩ := List.exists_mem_of_ne_nil _ hfailed
        rw [List.mem_filter, decide_eq_true_eq, h.failed_iff] at hdep
        refine hdep.2.2 (hall dep ?_)
        change dep ∈ dependencies specs name
        rw [dependencies_of_get? hspec]
        exact hdep.1
      · intro c hc hcname
        exact absurd ⟨c, hc, hcname⟩ (h.not_called hname)

/-- The step that calls a check. -/
theorem call (h : Executed specs sysroot o done results failedNames calls)
    (hspec : specs.get? name = some spec) (hname : name ∉ done)
    (hfirst : SuccessorsFirst (dependencies specs) (done ++ [name]))
    (hfailed : spec.dependsOn.filter (· ∈ failedNames) = [])
    (answer : Except PyError (Bool × String)) (hanswer : answer = o calls ⟨name, sysroot⟩) :
    Executed specs sysroot o (done ++ [name]) (results ++ [checkResult name spec answer])
      (if (verdict answer).1 then failedNames else insert name failedNames)
      (⟨⟨name, sysroot⟩, answer⟩ :: calls) where
  names := by simp [h.names, checkResult]
  once := by
    rw [List.map_cons, List.nodup_cons]
    refine ⟨fun hmem => ?_, h.once⟩
    obtain ⟨c, hc, hcname⟩ := List.mem_map.mp hmem
    exact h.not_called hname ⟨c, hc, hcname⟩
  called := by
    intro c hc
    rcases List.mem_cons.mp hc with rfl | hc
    · exact ⟨by simp, rfl⟩
    · exact ⟨List.mem_append_left _ (h.called c hc).1, (h.called c hc).2⟩
  oracle := by
    intro c hc
    rcases List.mem_cons.mp hc with rfl | hc
    · exact ⟨calls, hanswer⟩
    · exact h.oracle c hc
  failed_iff := by
    intro a
    have hnot : ¬ Passed calls name := fun hp => h.not_called hname (called_of_passed hp)
    by_cases ha : a = name
    · subst ha
      cases hv : (verdict answer).1 <;> simp [passed_cons, hv, hnot, h.failed_iff, hname]
    · rw [passed_cons_of_ne ha]
      cases (verdict answer).1 <;> simp [ha, h.failed_iff]
  judged := by
    have hdeps : ∀ a ∈ done, ∀ dep ∈ dependencies specs a, dep ∈ done := by
      intro a ha dep hdep
      obtain ⟨before, after, rfl⟩ := List.append_of_mem ha
      have := hfirst before a (after ++ [name]) (by simp) dep hdep
      exact List.mem_append_left _ this
    intro r hr
    rcases List.mem_append.mp hr with hr | hr
    · have hmem := h.result_mem hr
      refine (h.judged r hr).cons (fun heq => hname ?_) fun dep hdep heq => hname ?_
      · exact (show r.name = name from heq) ▸ hmem
      · exact (show dep = name from heq) ▸ hdeps r.name hmem dep hdep
    · obtain rfl := List.mem_singleton.mp hr
      refine ⟨by simp [checkResult, hspec], ?_, ?_, ?_⟩
      · refine iff_of_true (called_cons.mpr (.inl rfl)) fun dep hdep => ?_
        have hdone : dep ∈ done := hfirst done name [] rfl dep hdep
        have hne : dep ≠ name := fun heq => hname (heq ▸ hdone)
        rw [passed_cons_of_ne hne]
        by_contra hnot
        have hmem : dep ∈ spec.dependsOn.filter (· ∈ failedNames) := by
          rw [List.mem_filter, decide_eq_true_eq, h.failed_iff]
          refine ⟨?_, hdone, hnot⟩
          rw [← dependencies_of_get? hspec]
          exact hdep
        rw [hfailed] at hmem
        simp at hmem
      · intro c hc hcname
        rcases List.mem_cons.mp hc with rfl | hc
        · exact ⟨rfl, rfl⟩
        · exact absurd ⟨c, hc, hcname⟩ (h.not_called hname)
      · intro hnot
        exact absurd (called_cons.mpr (.inl rfl)) hnot

end Executed

/-- The loop ends with every check judged, or at a name that is not registered. -/
theorem executeAll_spec {specs : Registry} {sysroot : String} {o : Oracle CheckCalls}
    (rest done : List String) (results : List CheckResult) (failedNames : Finset String)
    (hnodup : (done ++ rest).Nodup)
    (hfirst : SuccessorsFirst (dependencies specs) (done ++ rest)) :
    Triple o.handler (Executed specs sysroot o done results failedNames)
      (executeAll specs sysroot rest results failedNames)
      (fun out calls => (∃ failed, Executed specs sysroot o (done ++ rest) out failed calls) ∧
        ∀ name ∈ rest, name ∈ specs.keys)
      fun x _ => ∃ name ∈ rest, name ∉ specs.keys ∧ x = keyError name := by
  induction rest generalizing done results failedNames with
  | nil => exact Triple.pure fun calls h => ⟨⟨failedNames, by simpa using h⟩, by simp⟩
  | cons name rest ih =>
    have hname : name ∉ done := fun hmem =>
      List.disjoint_of_nodup_append hnodup hmem List.mem_cons_self
    have happend : done ++ name :: rest = (done ++ [name]) ++ rest := by simp
    have hfirst' : SuccessorsFirst (dependencies specs) (done ++ [name]) := by
      intro before a after heq
      exact hfirst before a (after ++ rest) (by rw [happend, heq]; simp)
    rw [executeAll]
    cases hspec : specs.get? name with
    | none =>
      refine Triple.throw fun calls _ => ⟨name, List.mem_cons_self, ?_, rfl⟩
      exact Dict.get?_eq_none_iff.mp hspec
    | some spec =>
      have hkey : name ∈ specs.keys := Dict.mem_keys_iff.mpr ⟨spec, hspec⟩
      have hrest : ∀ results failedNames, Triple o.handler
          (Executed specs sysroot o (done ++ [name]) results failedNames)
          (executeAll specs sysroot rest results failedNames)
          (fun out calls =>
            (∃ failed, Executed specs sysroot o (done ++ name :: rest) out failed calls) ∧
              ∀ a ∈ name :: rest, a ∈ specs.keys)
          fun x _ => ∃ a ∈ name :: rest, a ∉ specs.keys ∧ x = keyError a := by
        intro results failedNames
        rw [happend] at hnodup hfirst ⊢
        refine (ih _ results failedNames hnodup hfirst).conseq (fun _ h => h) ?_ ?_
        · rintro out calls ⟨h, hmem⟩
          exact ⟨h, List.forall_mem_cons.mpr ⟨hkey, hmem⟩⟩
        · rintro x _ ⟨a, ha, hx⟩
          exact ⟨a, List.mem_cons_of_mem _ ha, hx⟩
      by_cases hfailed : spec.dependsOn.filter (· ∈ failedNames) = []
      · simp only [hfailed, ne_eq, not_true_eq_false, if_false]
        refine Triple.bind (Triple.perform fun calls h => ?_) fun answer => hrest _ _
        exact h.call hspec hname hfirst' hfailed _ rfl
      · simp only [ne_eq, hfailed, not_false_eq_true, if_true]
        exact (hrest _ _).pre fun calls h => h.skip hspec hname hfailed

/-- Every dependency of a selected check is registered. -/
def DependenciesRegistered (registry : Registry) (only : Option (List String)) : Prop :=
  ∀ name, Selected registry only name → ∀ dep ∈ dependencies registry name, dep ∈ registry.keys

/-- Some selected check of this severity did not pass. -/
def SomeUnpassed (registry : Registry) (only : Option (List String))
    (calls : List (Call CheckCalls)) (severity : Severity) : Prop :=
  ∃ name spec, Selected registry only name ∧ registry.get? name = some spec ∧
    spec.severity = severity ∧ ¬ Passed calls name

section Runs

variable {setOrder : SetOrder} {registry : Registry} {sysroot : String}
  {only : Option (List String)} {o : Oracle CheckCalls}

/-- What a run has left when it has returned. -/
structure Finished (setOrder : SetOrder) (registry : Registry) (sysroot : String)
    (only : Option (List String)) (o : Oracle CheckCalls) (results : List CheckResult)
    (calls : List (Call CheckCalls)) : Prop where
  registered : DependenciesRegistered registry only
  executed : ∃ order failedNames, order.Nodup ∧
    SuccessorsFirst (dependencies (selectedSpecs setOrder registry only)) order ∧
    (∀ name, name ∈ order ↔ Selected registry only name) ∧
    Executed (selectedSpecs setOrder registry only) sysroot o order results failedNames calls

/-- A run of an acyclic registry ends with the selected checks judged, or with a missing key. -/
theorem runChecks_spec (setOrder : SetOrder) (sysroot : String) (only : Option (List String))
    (o : Oracle CheckCalls) (hacyclic : ¬ Cyclic registry) :
    Triple o.handler (fun calls => calls = []) (runChecks setOrder registry sysroot only)
      (Finished setOrder registry sysroot only o)
      fun x _ => (∃ name, x = keyError name) ∧ ¬ DependenciesRegistered registry only := by
  obtain ⟨order, horder⟩ :=
    resolveOrder_acyclic (@selectedSpecs_acyclic setOrder registry only hacyclic)
  obtain ⟨hnodup, hfirst, -⟩ := resolveOrder_ok horder
  have hprogram : runChecks setOrder registry sysroot only =
      executeAll (selectedSpecs setOrder registry only) sysroot order [] ∅ := by
    rw [runChecks, horder]
    rfl
  rw [hprogram]
  refine (executeAll_spec order [] [] ∅ hnodup hfirst).conseq ?_ ?_ ?_
  · rintro calls rfl
    exact Executed.start
  · rintro results calls ⟨⟨failedNames, hexecuted⟩, hkeys⟩
    have hselected : ∀ name, name ∈ order → Selected registry only name :=
      fun name hname => mem_selectedSpecs.mp (hkeys name hname)
    refine ⟨fun name hname dep hdep => ?_, order, failedNames, hnodup, hfirst, ?_, hexecuted⟩
    · by_contra hnot
      exact hnot (hselected dep ((mem_order_iff horder).mpr (.inr ⟨hnot, name, hname, hdep⟩))).1
    · exact fun name => ⟨hselected name, fun h => (mem_order_iff horder).mpr (.inl h)⟩
  · rintro x calls ⟨name, hname, hkey, rfl⟩
    refine ⟨⟨name, rfl⟩, fun hregistered => hkey (mem_selectedSpecs.mpr ?_)⟩
    rcases (mem_order_iff horder).mp hname with hname | ⟨hnot, a, ha, hneeds⟩
    · exact hname
    · exact absurd (hregistered a ha name hneeds) hnot

namespace Finished

variable {results : List CheckResult} {calls : List (Call CheckCalls)} {r : CheckResult}
  {name : String}

theorem nodup (h : Finished setOrder registry sysroot only o results calls) :
    (results.map (·.name)).Nodup := by
  obtain ⟨order, _, hnodup, -, -, hexecuted⟩ := h.executed
  rw [hexecuted.names]
  exact hnodup

theorem mem_names (h : Finished setOrder registry sysroot only o results calls) :
    name ∈ results.map (·.name) ↔ Selected registry only name := by
  obtain ⟨order, _, -, -, hmem, hexecuted⟩ := h.executed
  rw [hexecuted.names]
  exact hmem name

theorem exists_result (h : Finished setOrder registry sysroot only o results calls)
    (hname : Selected registry only name) : ∃ r ∈ results, r.name = name :=
  List.mem_map.mp (h.mem_names.mpr hname)

theorem selected (h : Finished setOrder registry sysroot only o results calls)
    (hr : r ∈ results) : Selected registry only r.name :=
  h.mem_names.mp (List.mem_map_of_mem hr)

theorem judged (h : Finished setOrder registry sysroot only o results calls) (hr : r ∈ results) :
    Judged registry calls r := by
  obtain ⟨order, _, -, -, -, hexecuted⟩ := h.executed
  have hjudged := hexecuted.judged r hr
  have hselected := h.selected hr
  refine ⟨?_, ?_, hjudged.answered, hjudged.skipped⟩
  · rw [← get?_selectedSpecs hselected]
    exact hjudged.severity
  · rw [← dependencies_selectedSpecs hselected]
    exact hjudged.called_iff

theorem called_iff (h : Finished setOrder registry sysroot only o results calls)
    (hname : Selected registry only name) :
    Called calls name ↔ ∀ dep ∈ dependencies registry name, Passed calls dep := by
  obtain ⟨r, hr, rfl⟩ := h.exists_result hname
  exact (h.judged hr).called_iff

theorem called (h : Finished setOrder registry sysroot only o results calls)
    {c : Call CheckCalls} (hc : c ∈ calls) :
    Selected registry only c.1.name ∧ c.1.sysroot = sysroot ∧ ∃ earlier, c.2 = o earlier c.1 := by
  obtain ⟨order, _, -, -, hmem, hexecuted⟩ := h.executed
  obtain ⟨hdone, hsysroot⟩ := hexecuted.called c hc
  exact ⟨(hmem _).mp hdone, hsysroot, hexecuted.oracle c hc⟩

theorem once (h : Finished setOrder registry sysroot only o results calls) :
    (calls.map fun c => c.1.name).Nodup := by
  obtain ⟨order, _, -, -, -, hexecuted⟩ := h.executed
  exact hexecuted.once

theorem passed_of_called (h : Finished setOrder registry sysroot only o results calls)
    {a b : String} (hab : TransGen (Needs registry) a b) (ha : Selected registry only a)
    (hcalled : Called calls a) : Passed calls b := by
  induction hab using TransGen.head_induction_on with
  | single hab => exact (h.called_iff ha).mp hcalled _ hab
  | head hac _ ih =>
    have hpassed := (h.called_iff ha).mp hcalled _ hac
    exact ih (ha.dependency hac (h.registered _ ha _ hac)) (called_of_passed hpassed)

theorem called_iff_closure (h : Finished setOrder registry sysroot only o results calls)
    (hname : Selected registry only name) :
    Called calls name ↔ ∀ dep, TransGen (Needs registry) name dep → Passed calls dep := by
  constructor
  · intro hcalled dep hdep
    exact h.passed_of_called hdep hname hcalled
  · intro hall
    exact (h.called_iff hname).mpr fun dep hdep => hall dep (.single hdep)

theorem someUnpassed_iff (h : Finished setOrder registry sysroot only o results calls)
    (severity : Severity) : SomeUnpassed registry only calls severity ↔
      ∃ r ∈ results, r.severity = severity ∧ r.status ≠ .pass := by
  constructor
  · rintro ⟨name, spec, hname, hspec, hseverity, hnot⟩
    obtain ⟨r, hr, rfl⟩ := h.exists_result hname
    have hjudged := h.judged hr
    refine ⟨r, hr, ?_, fun hpass => hnot (hjudged.passed_iff.mp hpass)⟩
    have hsome := hjudged.severity
    rw [hspec, Option.map_some, Option.some.injEq] at hsome
    exact hsome.symm.trans hseverity
  · rintro ⟨r, hr, hseverity, hnot⟩
    have hjudged := h.judged hr
    obtain ⟨spec, hspec, hsome⟩ := Option.map_eq_some_iff.mp hjudged.severity
    exact ⟨r.name, spec, h.selected hr, hspec, hsome.trans hseverity,
      fun hpassed => hnot (hjudged.passed_iff.mpr hpassed)⟩

end Finished

theorem runChecks_finished (setOrder : SetOrder) (sysroot : String) (o : Oracle CheckCalls)
    (hacyclic : ¬ Cyclic registry) (hregistered : DependenciesRegistered registry only) :
    ∃ results, ((runChecks setOrder registry sysroot only).run o.handler []).result = .ok results ∧
      Finished setOrder registry sysroot only o results
        ((runChecks setOrder registry sysroot only).trace o) := by
  obtain ⟨hok, herror⟩ := runChecks_spec setOrder sysroot only o hacyclic [] rfl
  cases hrun : ((runChecks setOrder registry sysroot only).run o.handler []).result with
  | ok results => exact ⟨results, rfl, hok results hrun⟩
  | error x => exact absurd hregistered (herror x hrun).2

end Runs

theorem status_ne_pass_iff (r : CheckResult) :
    (r.status == .fail || r.status == .skip) = true ↔ r.status ≠ .pass := by
  cases r.status <;> simp

theorem deriveExitCode_spec (results : List CheckResult) :
    deriveExitCode results =
      if ∃ r ∈ results, r.severity = .critical ∧ r.status ≠ .pass then 2
      else if ∃ r ∈ results, r.severity = .warning ∧ r.status ≠ .pass then 1 else 0 := by
  have hany : ∀ severity : Severity, (results.any fun r =>
      (r.status == .fail || r.status == .skip) && r.severity == severity) = true ↔
        ∃ r ∈ results, r.severity = severity ∧ r.status ≠ .pass := by
    intro severity
    simp only [List.any_eq_true, Bool.and_eq_true, status_ne_pass_iff, beq_iff_eq, and_comm]
  unfold deriveExitCode
  simp only [hany]

end MowerRover.Probe
