import Mathlib.Data.String.Basic
import MowerRover.Probe.RunChecks

/-!
# The verdicts of a probe run

What the results of a run say about the checks, which of it a selection
changes, and when a run comes to an end at all.
-/

namespace MowerRover.Probe

open Effects MowerRover.Graph Relation

/-- Every dependency of a registered check is registered. -/
def Closed (registry : Registry) : Prop :=
  ∀ name ∈ registry.keys, ∀ dep ∈ dependencies registry name, dep ∈ registry.keys

/-- A set is visited in the order of its names. -/
def SetOrder.sorted : SetOrder where
  list names := names.sort (· ≤ ·)
  nodup names := names.sort_nodup _
  mem _ _ := Finset.mem_sort _

/-- Five of the shipped checks. -/
def shippedSpecs : Registry where
  entries := [("cuda", ⟨"cuda", .critical, ["jetpack_version"]⟩),
    ("jetpack_version", ⟨"jetpack_version", .critical, []⟩),
    ("oakd", ⟨"oakd", .critical, ["jetpack_version"]⟩),
    ("oakd_vslam_config", ⟨"oakd_vslam_config", .warning, ["oakd"]⟩),
    ("thermal", ⟨"thermal", .warning, ["jetpack_version"]⟩)]
  nodup := by decide

theorem shippedSpecs_acyclic : ¬ Cyclic shippedSpecs := by
  have h : resolveOrder shippedSpecs =
      .ok ["jetpack_version", "cuda", "oakd", "oakd_vslam_config", "thermal"] := by decide +kernel
  exact acyclic_of_ok h

theorem shippedSpecs_closed : Closed shippedSpecs := by
  unfold Closed
  decide

/-- One of them without the one it needs. -/
def cudaAlone : Registry where
  entries := [("cuda", ⟨"cuda", .critical, ["jetpack_version"]⟩)]
  nodup := by decide

theorem cudaAlone_acyclic : ¬ Cyclic cudaAlone := by
  have h : resolveOrder cudaAlone = .ok ["jetpack_version", "cuda"] := by decide +kernel
  exact acyclic_of_ok h

/-- Check functions that all pass. -/
def allPass : Answers CheckCalls := fun _ => .ok (true, "ok")

/-- The check of CUDA raises, that of the camera answers with a failure, and the
others pass. -/
def someFail : Answers CheckCalls := fun op =>
  if op.name = "cuda" then .error (.os "no nvcc")
  else if op.name = "oakd" then .ok (false, "no OAK device")
  else .ok (true, "ok")

section Selection

variable {registry : Registry}

theorem Closed.dependenciesRegistered (h : Closed registry) (only : Option (List String)) :
    DependenciesRegistered registry only := fun name hname => h name hname.1

theorem selected_none {name : String} : Selected registry none name ↔ name ∈ registry.keys := by
  simp [Selected]

theorem reaches_keys (h : Closed registry) {a b : String} (ha : a ∈ registry.keys)
    (hab : ReflTransGen (Needs registry) a b) : b ∈ registry.keys := by
  induction hab with
  | refl => exact ha
  | tail _ hcb ih => exact h _ ih _ hcb

theorem selected_some {asked : List String} {name : String} (h : Closed registry) :
    Selected registry (some asked) name ↔
      ∃ r ∈ asked, r ∈ registry.keys ∧ ReflTransGen (Needs registry) r name := by
  simp only [Selected, Option.some.injEq, forall_eq']
  constructor
  · rintro ⟨hname, r, hr, hreach⟩
    exact ⟨r, hr, (reaches_registered hreach hname).1, hreach⟩
  · rintro ⟨r, hr, hkey, hreach⟩
    exact ⟨reaches_keys h hkey hreach, r, hr, hreach⟩

end Selection

/-- In an acyclic registry with registered dependencies a check is called, once, exactly when
everything it depends on was called and passed. A check that returned a true verdict has passed,
one that returned a false verdict or raised has failed, one that was not called was skipped, and
the exit code is that of the worst check that did not pass. -/
theorem runChecks_verdicts (registry : Registry) (hacyclic : ¬ Cyclic registry)
    (hclosed : Closed registry) (setOrder : SetOrder) (sysroot : String)
    (only : Option (List String)) (o : Oracle CheckCalls) :
    ∃ results calls,
      ((runChecks setOrder registry sysroot only).run o.handler []).result = .ok results ∧
      (runChecks setOrder registry sysroot only).trace o = calls ∧
      (results.map (·.name)).Nodup ∧
      (∀ name, name ∈ results.map (·.name) ↔ Selected registry only name) ∧
      (calls.map fun c => c.1.name).Nodup ∧
      (∀ c ∈ calls, Selected registry only c.1.name ∧ c.1.sysroot = sysroot) ∧
      (∀ r ∈ results,
        (registry.get? r.name).map (·.severity) = some r.severity ∧
        (Called calls r.name ↔
          ∀ dep, TransGen (Needs registry) r.name dep → Called calls dep ∧ Passed calls dep) ∧
        (∀ c ∈ calls, c.1.name = r.name →
          match c.2 with
          | .ok (true, _) => r.status = .pass
          | .ok (false, _) => r.status = .fail
          | .error _ => r.status = .fail) ∧
        (¬ Called calls r.name → r.status = .skip)) ∧
      (deriveExitCode results = 2 ↔ SomeUnpassed registry only calls .critical) ∧
      (deriveExitCode results = 1 ↔ ¬ SomeUnpassed registry only calls .critical ∧
        SomeUnpassed registry only calls .warning) ∧
      (deriveExitCode results = 0 ↔ ¬ SomeUnpassed registry only calls .critical ∧
        ¬ SomeUnpassed registry only calls .warning) := by
  obtain ⟨results, hrun, h⟩ := runChecks_finished setOrder sysroot o hacyclic
    (hclosed.dependenciesRegistered only)
  refine ⟨results, _, hrun, rfl, h.nodup, fun name => h.mem_names, h.once, ?_, ?_, ?_⟩
  · intro c hc
    exact ⟨(h.called hc).1, (h.called hc).2.1⟩
  · intro r hr
    have hjudged := h.judged hr
    refine ⟨hjudged.severity, ?_, fun c hc hname => ?_, hjudged.skipped⟩
    · rw [h.called_iff_closure (h.selected hr)]
      exact forall₂_congr fun dep _ => ⟨fun hp => ⟨called_of_passed hp, hp⟩, And.right⟩
    · have hstatus := (hjudged.answered c hc hname).1
      match hanswer : c.2 with
      | .ok (true, _) => simpa [hanswer, verdict] using hstatus
      | .ok (false, _) => simpa [hanswer, verdict] using hstatus
      | .error _ => simpa [hanswer, verdict] using hstatus
  · simp only [h.someUnpassed_iff, deriveExitCode_spec]
    split_ifs with hcritical hwarning
    · simp [hcritical]
    · simp [hcritical, hwarning]
    · simp [hcritical, hwarning]

/-- CUDA raises and the camera is missing: both have failed, and the check of the
camera's configuration was skipped. -/
def someResults : List CheckResult :=
  [⟨"jetpack_version", .pass, .critical, "ok"⟩,
    ⟨"cuda", .fail, .critical, "Unexpected error: no nvcc"⟩,
    ⟨"oakd", .fail, .critical, "no OAK device"⟩,
    ⟨"oakd_vslam_config", .skip, .warning, "Skipped — dependency failed: oakd"⟩,
    ⟨"thermal", .pass, .warning, "ok"⟩]

theorem someFail_results :
    ((runChecks .sorted shippedSpecs "/" none).run someFail.handler []).result =
      .ok someResults := by
  decide +kernel

/-- The statuses are those of the answers, and the exit code is that of a critical failure. -/
theorem runChecks_verdicts_cuda : ∃ results,
    ((runChecks .sorted shippedSpecs "/" none).run someFail.handler []).result = .ok results ∧
    results.map (fun r => (r.name, r.status)) =
      [("jetpack_version", .pass), ("cuda", .fail), ("oakd", .fail),
        ("oakd_vslam_config", .skip), ("thermal", .pass)] ∧
    (∀ r ∈ results, ∀ c ∈ (runChecks .sorted shippedSpecs "/" none).trace fun _ => someFail,
      c.1.name = r.name → (r.status = .pass ↔ IsPass c.2)) ∧
    deriveExitCode results = 2 := by
  obtain ⟨results, calls, hrun, rfl, -, -, -, -, hjudged, -⟩ :=
    runChecks_verdicts shippedSpecs shippedSpecs_acyclic shippedSpecs_closed .sorted "/" none
      fun _ => someFail
  obtain rfl := Except.ok.inj (hrun.symm.trans someFail_results)
  refine ⟨_, hrun, rfl, fun r hr c hc hname => ?_, rfl⟩
  have hstatus := (hjudged r hr).2.2.1 c hc hname
  match hanswer : c.2 with
  | .ok (true, detail) => simp_all [IsPass]
  | .ok (false, detail) => simp_all [IsPass]
  | .error exc => simp_all [IsPass]

section Pure

variable {setOrder : SetOrder} {registry : Registry} {sysroot : String}
  {only : Option (List String)} {a : Answers CheckCalls} {results : List CheckResult}
  {calls : List (Call CheckCalls)} {r : CheckResult}

theorem Finished.passed_iff
    (h : Finished setOrder registry sysroot only (fun _ => a) results calls) (name : String) :
    Passed calls name ↔ Called calls name ∧ IsPass (a ⟨name, sysroot⟩) := by
  have hanswer : ∀ c ∈ calls, c.2 = a ⟨c.1.name, sysroot⟩ := by
    intro c hc
    obtain ⟨-, hsysroot, _, hanswer⟩ := h.called hc
    rw [hanswer, ← hsysroot]
  constructor
  · rintro ⟨c, hc, rfl, hpass⟩
    rw [hanswer c hc] at hpass
    exact ⟨⟨c, hc, rfl⟩, hpass⟩
  · rintro ⟨⟨c, hc, rfl⟩, hpass⟩
    refine ⟨c, hc, rfl, ?_⟩
    rwa [hanswer c hc]

theorem Finished.status_eq
    (h : Finished setOrder registry sysroot only (fun _ => a) results calls) (hr : r ∈ results) :
    (Passed calls r.name → r.status = .pass) ∧
      (¬ Passed calls r.name → Called calls r.name → r.status = .fail) ∧
      (¬ Called calls r.name → r.status = .skip) := by
  have hjudged := h.judged hr
  refine ⟨hjudged.passed_iff.mpr, ?_, hjudged.skipped⟩
  rintro hnot ⟨c, hc, hname⟩
  have hverdict : (verdict c.2).1 = false := by
    by_contra hpass
    exact hnot ⟨c, hc, hname, verdict_iff.mp (by simpa using hpass)⟩
  rw [(hjudged.answered c hc hname).1, hverdict]
  rfl

variable {setOrder' : SetOrder} {only' : Option (List String)} {results' : List CheckResult}
  {calls' : List (Call CheckCalls)}

theorem Finished.called_iff_called
    (h : Finished setOrder registry sysroot only (fun _ => a) results calls)
    (h' : Finished setOrder' registry sysroot only' (fun _ => a) results' calls')
    (hsub : ∀ name, Selected registry only name → Selected registry only' name) :
    ∀ name, Selected registry only name → (Called calls name ↔ Called calls' name) := by
  obtain ⟨order, _, -, hfirst, hmem, -⟩ := h.executed
  have hcalled : ∀ name ∈ order, Called calls name ↔ Called calls' name := by
    refine hfirst.induction fun name hname ih => ?_
    have hselected := (hmem name).mp hname
    rw [dependencies_selectedSpecs hselected] at ih
    rw [h.called_iff hselected, h'.called_iff (hsub name hselected)]
    refine forall₂_congr fun dep hdep => ?_
    rw [h.passed_iff, h'.passed_iff, ih dep hdep]
  exact fun name hname => hcalled name ((hmem name).mpr hname)

theorem Finished.same_result
    (h : Finished setOrder registry sysroot only (fun _ => a) results calls)
    (h' : Finished setOrder' registry sysroot only' (fun _ => a) results' calls')
    (hsub : ∀ name, Selected registry only name → Selected registry only' name) (hr : r ∈ results) :
    ∃ r' ∈ results', r'.name = r.name ∧ r'.status = r.status ∧ r'.severity = r.severity := by
  have hselected := h.selected hr
  obtain ⟨r', hr', hname⟩ := h'.exists_result (hsub r.name hselected)
  have hcalled := h.called_iff_called h' hsub r.name hselected
  have hpassed : Passed calls r.name ↔ Passed calls' r.name := by
    rw [h.passed_iff, h'.passed_iff, hcalled]
  obtain ⟨hpass, hfail, hskip⟩ := h.status_eq hr
  obtain ⟨hpass', hfail', hskip'⟩ := h'.status_eq hr'
  rw [hname, ← hpassed, ← hcalled] at hfail'
  rw [hname, ← hpassed] at hpass'
  rw [hname, ← hcalled] at hskip'
  have hseverity := (h'.judged hr').severity
  rw [hname, (h.judged hr).severity, Option.some.injEq] at hseverity
  refine ⟨r', hr', hname, ?_, hseverity.symm⟩
  by_cases hp : Passed calls r.name
  · rw [hpass hp, hpass' hp]
  · by_cases hc : Called calls r.name
    · rw [hfail hp hc, hfail' hp hc]
    · rw [hskip hc, hskip' hc]

end Pure

/-- When the check functions are functions of the root alone, a run restricted to some names has
the results of the full run for what these names lead to, and no others. -/
theorem runChecks_only (registry : Registry) (hacyclic : ¬ Cyclic registry)
    (hclosed : Closed registry) (a : Answers CheckCalls) (sysroot : String) (asked : List String)
    (setOrder setOrder' : SetOrder) :
    ∃ full part,
      ((runChecks setOrder registry sysroot none).run a.handler []).result = .ok full ∧
      ((runChecks setOrder' registry sysroot (some asked)).run a.handler []).result = .ok part ∧
      (full.map (·.name)).Nodup ∧ (part.map (·.name)).Nodup ∧
      (∀ name, name ∈ part.map (·.name) ↔
        ∃ r ∈ asked, r ∈ registry.keys ∧ ReflTransGen (Needs registry) r name) ∧
      ∀ r ∈ part, ∃ r' ∈ full, r'.name = r.name ∧ r'.status = r.status ∧
        r'.severity = r.severity := by
  obtain ⟨full, hfull, h⟩ := runChecks_finished setOrder sysroot (fun _ => a) hacyclic
    (hclosed.dependenciesRegistered none)
  obtain ⟨part, hpart, h'⟩ := runChecks_finished setOrder' sysroot (fun _ => a) hacyclic
    (hclosed.dependenciesRegistered (some asked))
  refine ⟨full, part, hfull, hpart, h.nodup, h'.nodup, ?_, ?_⟩
  · intro name
    rw [h'.mem_names, selected_some hclosed]
  · intro r hr
    exact h'.same_result h (fun name hname => selected_none.mpr hname.1) hr

/-- Asking for the camera's configuration alone finds the camera missing as well,
and skips the same check. -/
theorem runChecks_only_cuda : ∃ full part,
    ((runChecks .sorted shippedSpecs "/" none).run someFail.handler []).result = .ok full ∧
    ((runChecks .sorted shippedSpecs "/" (some ["oakd_vslam_config"])).run
      someFail.handler []).result = .ok part ∧
    ("oakd", .fail) ∈ part.map (fun r => (r.name, r.status)) ∧
    ("oakd_vslam_config", .skip) ∈ part.map (fun r => (r.name, r.status)) := by
  obtain ⟨full, part, hfull, hpart, -, -, hnames, hsame⟩ :=
    runChecks_only shippedSpecs shippedSpecs_acyclic shippedSpecs_closed someFail "/"
      ["oakd_vslam_config"] .sorted .sorted
  obtain rfl := Except.ok.inj (hfull.symm.trans someFail_results)
  have hstatus : ∀ name status, name ∈ part.map (·.name) →
      (∀ r ∈ someResults, r.name = name → r.status = status) →
      (name, status) ∈ part.map fun r => (r.name, r.status) := by
    intro name status hname hall
    obtain ⟨r, hr, rfl⟩ := List.mem_map.mp hname
    obtain ⟨r', hr', hname', hstatus', -⟩ := hsame r hr
    exact List.mem_map.mpr ⟨r, hr, by rw [← hstatus', hall r' hr' hname']⟩
  have hconfig : "oakd_vslam_config" ∈ part.map (·.name) :=
    (hnames _).mpr ⟨_, by simp, by decide, .refl⟩
  have hneeds : Needs shippedSpecs "oakd_vslam_config" "oakd" := by
    unfold Needs Edge
    decide
  have hcamera : "oakd" ∈ part.map (·.name) :=
    (hnames _).mpr ⟨"oakd_vslam_config", by simp, by decide, .single hneeds⟩
  exact ⟨_, part, hfull, hpart, hstatus _ _ hcamera (by decide), hstatus _ _ hconfig (by decide)⟩

/-- A run of an acyclic registry returns exactly when every dependency of a selected check is
registered; otherwise it ends with a `KeyError`. -/
theorem runChecks_returns_iff (registry : Registry) (hacyclic : ¬ Cyclic registry)
    (setOrder : SetOrder) (sysroot : String) (only : Option (List String))
    (o : Oracle CheckCalls) :
    (∃ results,
      ((runChecks setOrder registry sysroot only).run o.handler []).result = .ok results) ↔
      DependenciesRegistered registry only := by
  obtain ⟨hok, -⟩ := runChecks_spec setOrder sysroot only o hacyclic [] rfl
  constructor
  · rintro ⟨results, hrun⟩
    exact (hok results hrun).registered
  · intro hregistered
    obtain ⟨results, hrun, -⟩ := runChecks_finished setOrder sysroot o hacyclic hregistered
    exact ⟨results, hrun⟩

theorem runChecks_returns_iff_cuda : ∃ results,
    ((runChecks .sorted shippedSpecs "/" none).run allPass.handler []).result = .ok results :=
  (runChecks_returns_iff shippedSpecs shippedSpecs_acyclic .sorted "/" none fun _ => allPass).mpr
    (shippedSpecs_closed.dependenciesRegistered none)

/-- A check registered without the one it depends on: the registry takes it, there is no cycle, and
the run ends with the `KeyError` of the missing name. -/
theorem runChecks_raises_keyError :
    (register .empty "cuda" .critical ["jetpack_version"]).map (·.entries) = .ok cudaAlone.entries ∧
      ¬ Cyclic cudaAlone ∧
      ((runChecks .sorted cudaAlone "/" none).run allPass.handler []).result =
        .error (keyError "jetpack_version") :=
  ⟨by decide +kernel, cudaAlone_acyclic, by decide +kernel⟩

end MowerRover.Probe
