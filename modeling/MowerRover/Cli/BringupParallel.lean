import MowerRover.Cli.BringupRun

/-!
# Parallel builds against the sequential contract

A run with `--parallel-builds` consists of the steps before the builds, the
turn of the builds, and the steps after them. Of the sequential contract it
keeps the order of the gates always. It checks the builds even when the run is
to start behind them, and an exception that the threads do not catch is lost.
-/

namespace MowerRover.Cli.Bringup

open Effects

variable (b : Behaviour)

/-- The step raises something that its thread does not catch. -/
def Loses (name : String) : Prop :=
  b.check name = .ok false ∧ ∃ message, b.execute name = .error (.other message)

def buildTurn (continueOnError : Bool) : BringupM (List Failure) := do
  match ← parallelBuilds continueOnError bringupSteps with
  | some errors => pure errors
  | none => visit continueOnError { name := "build-rtabmap" }

/-- What the turn notes down, in the order in which the builds fail. -/
def buildErrors (rtabmap depthai : Bool) : List Failure :=
  let rtabmapErrors :=
    if !rtabmap then threadErrors "build-rtabmap" (b.execute "build-rtabmap") else []
  let depthaiErrors :=
    if !depthai then threadErrors "build-depthai" (b.execute "build-depthai") else []
  if b.depthaiFirst then depthaiErrors ++ rtabmapErrors else rtabmapErrors ++ depthaiErrors

def buildEvents (rtabmap depthai : Bool) : List Event :=
  [.checked "build-rtabmap", .checked "build-depthai"] ++
    (if !rtabmap then [.started "build-rtabmap"] else []) ++
      if !depthai then [.started "build-depthai"] else []

def builds : List String := ["build-rtabmap", "build-depthai"]

section Builds

variable {b} {continueOnError rtabmap depthai : Bool}

theorem run_threadBuild (name : String) (needed : Bool) :
    b.run (threadBuild name needed) =
      ⟨.ok (if needed then threadErrors name (b.execute name) else []), (),
        if needed then [.started name] else []⟩ := by
  cases needed with
  | false => rfl
  | true =>
    change b.run (perform (.execute name (some 6)) >>= fun result =>
      pure (threadErrors name result)) = _
    rw [run_bind, run_execute]
    rfl

theorem threadErrors_eq_nil_iff (name : String) (result : Except Raised Unit) :
    threadErrors name result = [] ↔
      result = .ok () ∨ ∃ message, result = .error (.other message) := by
  cases result with
  | ok u => simp [threadErrors]
  | error x => cases x <;> simp [threadErrors, Raised.message]

theorem no_error_iff {name : String} {satisfied : Bool} (hcheck : b.check name = .ok satisfied) :
    (if !satisfied then threadErrors name (b.execute name) else []) = [] ↔
      Passes b name ∨ Loses b name := by
  cases satisfied with
  | true => simp [Passes, hcheck]
  | false => simp [Passes, Loses, hcheck, threadErrors_eq_nil_iff]

theorem buildErrors_eq_nil_iff (hr : b.check "build-rtabmap" = .ok rtabmap)
    (hd : b.check "build-depthai" = .ok depthai) : buildErrors b rtabmap depthai = [] ↔
      ∀ name ∈ builds, Passes b name ∨ Loses b name := by
  rw [builds, List.forall_mem_cons, List.forall_mem_singleton, ← no_error_iff hr,
    ← no_error_iff hd, buildErrors]
  cases b.depthaiFirst <;> simp [and_comm]

theorem run_parallelBuilds (hr : b.check "build-rtabmap" = .ok rtabmap)
    (hd : b.check "build-depthai" = .ok depthai) :
    b.run (parallelBuilds continueOnError bringupSteps) =
      if rtabmap && depthai then
        ⟨.ok none, (), [.checked "build-rtabmap", .checked "build-depthai"]⟩
      else ⟨if buildErrors b rtabmap depthai ≠ [] && !continueOnError then .error (.exit 3)
        else .ok (some (buildErrors b rtabmap depthai)), (), buildEvents rtabmap depthai⟩ := by
  have hany : (bringupSteps.any fun s => s.name = "build-depthai") = true := by decide
  rw [parallelBuilds, run_bind, run_check, hr, Outcome.andThen_mk_ok, if_pos hany]
  simp only [run_bind, run_check, hd, run_pure, Outcome.andThen_mk_ok, Outcome.after_after]
  cases hboth : rtabmap && depthai with
  | true =>
    obtain ⟨rfl, rfl⟩ := Bool.and_eq_true_iff.mp hboth
    rfl
  | false =>
    have hneeds : (!rtabmap || !depthai) = true := by
      rw [← Bool.not_and, hboth]
      rfl
    rw [if_pos hneeds]
    simp only [run_bind, run_threadBuild, Outcome.andThen_mk_ok, Outcome.after_after]
    -- which build fails first is known from here on
    change (b.run (if buildErrors b rtabmap depthai ≠ [] && !continueOnError then do
        throw (.exit 3)
        pure (some (buildErrors b rtabmap depthai))
      else pure (some (buildErrors b rtabmap depthai)))).after _ = _
    rw [if_neg (show ¬false = true by decide)]
    by_cases hstop : (buildErrors b rtabmap depthai ≠ [] && !continueOnError) = true
    · rw [if_pos hstop, if_pos hstop, run_bind, run_throw, Outcome.andThen_mk_error]
      simp [Outcome.after, buildEvents]
    · rw [if_neg hstop, if_neg hstop, run_pure]
      simp [Outcome.after, buildEvents]

/-- A satisfied build is checked once more. -/
theorem run_buildTurn (hr : b.check "build-rtabmap" = .ok rtabmap)
    (hd : b.check "build-depthai" = .ok depthai) :
    b.run (buildTurn continueOnError) =
      if rtabmap && depthai then
        ⟨.ok [], (), [.checked "build-rtabmap", .checked "build-depthai", .checked "build-rtabmap"]⟩
      else ⟨if buildErrors b rtabmap depthai ≠ [] && !continueOnError then .error (.exit 3)
        else .ok (buildErrors b rtabmap depthai), (), buildEvents rtabmap depthai⟩ := by
  rw [buildTurn, run_bind, run_parallelBuilds hr hd]
  split_ifs with hboth hstop
  · have hsatisfied : b.check "build-rtabmap" = .ok true := by
      rw [hr, (Bool.and_eq_true_iff.mp hboth).1]
    simp only [Outcome.andThen_mk_ok, visit, run_bind, run_check, hsatisfied, if_true, run_pure,
      Outcome.after]
    rfl
  · rfl
  · simp [Outcome.after]

theorem run_buildTurn_error {x : Raised} (hr : b.check "build-rtabmap" = .error x) :
    b.run (buildTurn continueOnError) = ⟨.error x, (), [.checked "build-rtabmap"]⟩ := by
  rw [buildTurn, run_bind, parallelBuilds, run_bind, run_check, hr, Outcome.andThen_mk_error,
    Outcome.andThen_mk_error]

theorem run_buildTurn_error' {x : Raised} (hr : b.check "build-rtabmap" = .ok rtabmap)
    (hd : b.check "build-depthai" = .error x) : b.run (buildTurn continueOnError) =
      ⟨.error x, (), [.checked "build-rtabmap", .checked "build-depthai"]⟩ := by
  have hany : (bringupSteps.any fun s => s.name = "build-depthai") = true := by decide
  rw [buildTurn, run_bind, parallelBuilds, run_bind, run_check, hr, Outcome.andThen_mk_ok,
    if_pos hany]
  simp only [run_bind, run_check, hd, Outcome.andThen_mk_error, Outcome.after]
  rfl

theorem passes_or_loses_check {name : String} (h : Passes b name ∨ Loses b name) :
    ∃ satisfied, b.check name = .ok satisfied := by
  rcases h with (h | h) | h
  · exact ⟨true, h⟩
  · exact ⟨false, h.1⟩
  · exact ⟨false, h.1⟩

/-- The turn ends well when each build succeeds, or its exception is lost. -/
theorem buildTurn_ok_nil_iff : (b.run (buildTurn continueOnError)).result = .ok [] ↔
    ∀ name ∈ builds, Passes b name ∨ Loses b name := by
  cases hr : b.check "build-rtabmap" with
  | error x =>
    rw [run_buildTurn_error hr]
    simp [builds, Passes, Loses, hr]
  | ok rtabmap =>
    cases hd : b.check "build-depthai" with
    | error x =>
      rw [run_buildTurn_error' hr hd]
      simp [builds, Passes, Loses, hd]
    | ok depthai =>
      rw [← buildErrors_eq_nil_iff hr hd, run_buildTurn hr hd]
      split_ifs with hboth hstop
      · obtain ⟨rfl, rfl⟩ := Bool.and_eq_true_iff.mp hboth
        simp [buildErrors]
      · simp only [Bool.and_eq_true, decide_eq_true_eq] at hstop
        simp [hstop.1]
      · simp

theorem buildTurn_started (h : ∀ name ∈ builds, Passes b name ∨ Loses b name) :
    startedOf (b.run (buildTurn continueOnError)).events =
      builds.filter fun name => b.check name = .ok false := by
  obtain ⟨rtabmap, hr⟩ := passes_or_loses_check (h "build-rtabmap" (by simp [builds]))
  obtain ⟨depthai, hd⟩ := passes_or_loses_check (h "build-depthai" (by simp [builds]))
  rw [run_buildTurn hr hd, builds, List.filter_cons, List.filter_cons, List.filter_nil, hr, hd]
  cases rtabmap <;> cases depthai <;> rfl

theorem not_gateFailed_of_builds {e : Event} (he : e.step ∈ builds) : ¬GateFailed b e := by
  have hbuilds : ∀ name ∈ builds, isGate name = false := by decide
  rintro ⟨s, rfl, hgate, -⟩
  rw [hbuilds s he] at hgate
  cases hgate

theorem regular_of_builds {o : Outcome Raised (List Failure) Unit Event}
    (hwithin : ∀ e ∈ o.events, e.step ∈ builds)
    (hneeded : ∀ s, .started s ∈ o.events → b.check s = .ok false)
    (hquiet : Quiet b o.events → o.result = .ok []) : Regular b builds o where
  within := hwithin
  needed := hneeded
  quiet := hquiet
  ordered := by
    apply List.pairwise_of_forall_mem_list
    intro e he e' _ hgate
    exact absurd hgate (not_gateFailed_of_builds (hwithin e he))
  stops e he hgate := absurd hgate (not_gateFailed_of_builds (hwithin e he))

theorem mem_buildTurn_events (hr : b.check "build-rtabmap" = .ok rtabmap)
    (hd : b.check "build-depthai" = .ok depthai) {e : Event} :
    e ∈ (b.run (buildTurn continueOnError)).events ↔
      e = .checked "build-rtabmap" ∨ e = .checked "build-depthai" ∨
        rtabmap = false ∧ e = .started "build-rtabmap" ∨
          depthai = false ∧ e = .started "build-depthai" := by
  rw [run_buildTurn hr hd]
  cases rtabmap <;> cases depthai <;> simp [buildEvents]
  tauto

theorem passes_of_checked {name : String} {satisfied : Bool}
    (hcheck : b.check name = .ok satisfied)
    (hexecute : satisfied = false → b.execute name = .ok ()) : Passes b name := by
  cases satisfied with
  | true => exact .inl hcheck
  | false => exact .inr ⟨hcheck, hexecute rfl⟩

theorem buildTurn_regular : Regular b builds (b.run (buildTurn continueOnError)) := by
  cases hr : b.check "build-rtabmap" with
  | error x =>
    rw [run_buildTurn_error hr]
    apply regular_of_builds
    · simp [Event.step, builds]
    · simp
    · intro hquiet
      obtain ⟨satisfied, hok⟩ := hquiet.checked "build-rtabmap" (by simp)
      rw [hr] at hok
      cases hok
  | ok rtabmap =>
    cases hd : b.check "build-depthai" with
    | error x =>
      rw [run_buildTurn_error' hr hd]
      apply regular_of_builds
      · simp [Event.step, builds]
      · simp
      · intro hquiet
        obtain ⟨satisfied, hok⟩ := hquiet.checked "build-depthai" (by simp)
        rw [hd] at hok
        cases hok
    | ok depthai =>
      apply regular_of_builds
      · intro e he
        rcases (mem_buildTurn_events hr hd).mp he with rfl | rfl | ⟨-, rfl⟩ | ⟨-, rfl⟩ <;>
          simp [Event.step, builds]
      · intro s hs
        rcases (mem_buildTurn_events hr hd).mp hs with h | h | ⟨h, hs⟩ | ⟨h, hs⟩
        · cases h
        · cases h
        · rw [Event.started.inj hs, hr, h]
        · rw [Event.started.inj hs, hd, h]
      · intro hquiet
        apply buildTurn_ok_nil_iff.mpr
        intro name hname
        left
        simp only [builds, List.mem_cons, List.not_mem_nil, or_false] at hname
        rcases hname with rfl | rfl
        · apply passes_of_checked hr
          intro h
          exact hquiet.started _ ((mem_buildTurn_events hr hd).mpr (.inr (.inr (.inl ⟨h, rfl⟩))))
        · apply passes_of_checked hd
          intro h
          exact hquiet.started _ ((mem_buildTurn_events hr hd).mpr (.inr (.inr (.inr ⟨h, rfl⟩))))

end Builds

section Parts

theorem both_pure_nil (q : BringupM (List Failure)) : both (pure []) q = q := by
  rw [both, pure_bind]
  exact bind_pure q

theorem both_assoc (p q r : BringupM (List Failure)) :
    both (both p q) r = both p (both q r) := by
  simp only [both, bind_assoc, pure_bind, List.append_assoc]

theorem loop_append (turn : ℕ → BringupStep → BringupM (List Failure)) (i : ℕ)
    (before after : List BringupStep) : loop turn i (before ++ after) =
      both (loop turn i before) (loop turn (i + before.length) after) := by
  induction before generalizing i with
  | nil =>
    change _ = both (pure []) _
    rw [both_pure_nil]
    rfl
  | cons s before ih =>
    change both (turn i s) (loop turn (i + 1) (before ++ after)) =
      both (both (turn i s) (loop turn (i + 1) before)) _
    rw [ih, both_assoc, List.length_cons, Nat.add_right_comm, Nat.add_assoc]

variable {fromStep : Option String} {continueOnError parallel : Bool}

def optionsOf (fromStep : Option String) (continueOnError parallel : Bool) : Options where
  fromStep := fromStep
  continueOnError := continueOnError
  parallelBuilds := parallel

theorem ordinary_eq (idx : Option ℕ) (i : ℕ) (s : BringupStep) :
    ordinary (optionsOf fromStep continueOnError parallel) idx i s =
      if i < idx.getD 0 then pure [] else visit continueOnError s := rfl

/-- The steps before the target are skipped. -/
theorem loop_ordinary (idx : Option ℕ) {turn : ℕ → BringupStep → BringupM (List Failure)}
    {steps : List BringupStep} (i : ℕ) (h : ∀ j, ∀ s ∈ steps, turn j s =
      ordinary (optionsOf fromStep continueOnError parallel) idx j s) :
    loop turn i steps = visits continueOnError (steps.drop (idx.getD 0 - i)) := by
  induction steps generalizing i with
  | nil => simp [loop, visits]
  | cons s rest ih =>
    have hrest := ih (i + 1) fun j s hs => h j s (List.mem_cons_of_mem _ hs)
    change both (turn i s) (loop turn (i + 1) rest) = _
    rw [hrest, h i s List.mem_cons_self, ordinary_eq]
    split_ifs with hi
    · have hdrop : idx.getD 0 - i = (idx.getD 0 - (i + 1)) + 1 := by omega
      rw [both_pure_nil, hdrop, List.drop_succ_cons]
    · have hdrop : idx.getD 0 - i = 0 := by omega
      have hdrop' : idx.getD 0 - (i + 1) = 0 := by omega
      rw [hdrop, hdrop']
      rfl

/-- The place of `build-rtabmap`; `build-depthai` is next to it. -/
def rtabmapIdx : ℕ := 7

def stepsBefore : List BringupStep := bringupSteps.take rtabmapIdx

def stepsAfter : List BringupStep := bringupSteps.drop (rtabmapIdx + 2)

theorem loop_sequential (idx : Option ℕ) :
    loop (turn (optionsOf fromStep continueOnError false) idx bringupSteps) 0 bringupSteps =
      visits continueOnError (bringupSteps.drop (idx.getD 0)) :=
  loop_ordinary idx 0 fun _ _ _ => rfl

theorem turn_of_other (idx : Option ℕ) {s : BringupStep} (hr : s.name ≠ "build-rtabmap")
    (hd : s.name ≠ "build-depthai") (i : ℕ) :
    turn (optionsOf fromStep continueOnError true) idx bringupSteps i s =
      ordinary (optionsOf fromStep continueOnError true) idx i s := by
  rw [turn, if_neg (by simp [hr]), if_neg (by simp [hd])]

theorem loop_parallel_eq (idx : Option ℕ) :
    loop (turn (optionsOf fromStep continueOnError true) idx bringupSteps) 0 bringupSteps =
      both (visits continueOnError (stepsBefore.drop (idx.getD 0)))
        (both (turn (optionsOf fromStep continueOnError true) idx bringupSteps rtabmapIdx
          { name := "build-rtabmap" })
            (visits continueOnError (stepsAfter.drop (idx.getD 0 - (rtabmapIdx + 2))))) := by
  have hbefore : ∀ s ∈ stepsBefore, s.name ≠ "build-rtabmap" ∧ s.name ≠ "build-depthai" := by
    decide
  have hafter : ∀ s ∈ stepsAfter, s.name ≠ "build-rtabmap" ∧ s.name ≠ "build-depthai" := by decide
  have hsplit : ∀ t, loop t 0 bringupSteps = loop t 0 (stepsBefore ++
      ({ name := "build-rtabmap" } :: { name := "build-depthai" } :: stepsAfter)) := fun _ => rfl
  have hskip : ∀ i, turn (optionsOf fromStep continueOnError true) idx bringupSteps i
      { name := "build-depthai" } = pure [] := fun _ => rfl
  rw [hsplit, loop_append, loop_ordinary idx 0 fun j s hs => turn_of_other idx (hbefore s hs).1
    (hbefore s hs).2 j, Nat.sub_zero]
  change both _ (both _ (both (turn _ _ _ _ { name := "build-depthai" }) (loop _ _ stepsAfter))) = _
  rw [hskip, both_pure_nil, loop_ordinary idx _ fun j s hs => turn_of_other idx (hafter s hs).1
    (hafter s hs).2 j]
  rfl

theorem loop_parallel {idx : Option ℕ} (hk : idx.getD 0 ≤ rtabmapIdx) :
    loop (turn (optionsOf fromStep continueOnError true) idx bringupSteps) 0 bringupSteps =
      both (visits continueOnError (stepsBefore.drop (idx.getD 0)))
        (both (buildTurn continueOnError) (visits continueOnError stepsAfter)) := by
  have hturn : turn (optionsOf fromStep continueOnError true) idx bringupSteps rtabmapIdx
      { name := "build-rtabmap" } = buildTurn continueOnError := by
    have hordinary : ordinary (optionsOf fromStep continueOnError true) idx rtabmapIdx
        { name := "build-rtabmap" } = visit continueOnError { name := "build-rtabmap" } := by
      rw [ordinary_eq, if_neg (by omega)]
    rw [turn, buildTurn, ← hordinary]
    rfl
  rw [loop_parallel_eq, hturn, Nat.sub_eq_zero_of_le (by omega), List.drop_zero]

/-- The end of the command. -/
def finish (p : BringupM (List Failure)) : BringupM Unit := do
  let failures ← p
  if failures ≠ [] then throw (.exit 1)

theorem run_finish (p : BringupM (List Failure)) :
    (b.run (finish p)).events = (b.run p).events ∧
      ((b.run (finish p)).result = .ok () ↔ (b.run p).result = .ok []) := by
  rw [finish, run_bind]
  cases hp : (b.run p).result with
  | error x =>
    rw [Outcome.andThen_error hp]
    simp
  | ok failures =>
    rw [Outcome.andThen_ok hp]
    cases failures with
    | nil => simp
    | cons failure failures => simp

/-- The place of the step to start from. -/
def target : Option String → Option ℕ
  | none => some 0
  | some name => bringupSteps.findIdx? fun s => s.name = name

theorem command_of_target (continueOnError parallel : Bool) {k : ℕ}
    (ht : target fromStep = some k) :
    ∃ idx : Option ℕ, idx.getD 0 = k ∧
      bringupCommand (optionsOf fromStep continueOnError parallel) =
        finish (loop (turn (optionsOf fromStep continueOnError parallel) idx bringupSteps) 0
          bringupSteps) := by
  cases fromStep with
  | none =>
    obtain rfl : 0 = k := Option.some.inj ht
    exact ⟨none, rfl, rfl⟩
  | some name =>
    have hidx : (bringupSteps.findIdx? fun s => s.name = name) = some k := ht
    have hname : name ∈ stepNames := by
      obtain ⟨hlt, hk, -⟩ := List.findIdx?_eq_some_iff_getElem.mp hidx
      rw [stepNames, ← of_decide_eq_true hk]
      exact List.mem_map_of_mem (List.getElem_mem hlt)
    refine ⟨some k, rfl, ?_⟩
    have hknown : (some name).any (fun name => name ∉ stepNames) = false := by simpa using hname
    rw [bringupCommand]
    simp only [optionsOf, hknown, Option.bind_some, hidx]
    rfl

theorem command_unknown (ht : target fromStep = none) :
    bringupCommand (optionsOf fromStep continueOnError parallel) = throw (.exit 2) := by
  cases fromStep with
  | none => cases ht
  | some name =>
    have hname : name ∉ stepNames := by
      intro hmem
      obtain ⟨s, hs, hname⟩ := List.mem_map.mp hmem
      have hnone := List.findIdx?_eq_none_iff.mp ht s hs
      simp [hname] at hnone
    have hunknown : (some name).any (fun name => name ∉ stepNames) = true := by simpa using hname
    rw [bringupCommand]
    simp only [optionsOf, hunknown]
    rfl

end Parts

/-- What the sequential run promises, of the run with parallel builds: nothing before the target is
looked at, success means that nothing raised, without an exception the same steps are started, and
nothing is started behind a gate that failed. -/
structure Contract (fromStep : Option String) (continueOnError : Bool) : Prop where
  skipped : ∀ k, target fromStep = some k →
    ∀ e ∈ (b.run (bringupCommand (optionsOf fromStep continueOnError true))).events,
      e.step ∉ stepNames.take k
  success : (b.run (bringupCommand (optionsOf fromStep continueOnError true))).result = .ok () →
    ∀ s, .started s ∈ (b.run (bringupCommand (optionsOf fromStep continueOnError true))).events →
      b.execute s = .ok ()
  executed : Quiet b (b.run (bringupCommand (optionsOf fromStep continueOnError true))).events →
    startedOf (b.run (bringupCommand (optionsOf fromStep continueOnError true))).events =
      startedOf (b.run (bringupCommand (optionsOf fromStep continueOnError false))).events
  gates : (b.run (bringupCommand (optionsOf fromStep continueOnError true))).events.Pairwise
    (After b)

/-- A build raises something that its thread does not catch, and nothing else goes wrong from the
target on. -/
structure ErrorLost (k : ℕ) : Prop where
  loses : ∃ name ∈ builds, Loses b name
  builds : ∀ name ∈ builds, Passes b name ∨ Loses b name
  others : ∀ s ∈ bringupSteps.drop k, s.name ∉ Bringup.builds → Passes b s.name

section Contract

variable {b} {fromStep : Option String} {continueOnError : Bool} {k : ℕ}

theorem drop_eq (hk : k ≤ rtabmapIdx) : bringupSteps.drop k = stepsBefore.drop k ++
    ({ name := "build-rtabmap" } :: { name := "build-depthai" } :: stepsAfter) := by
  have hsplit : bringupSteps = stepsBefore ++
    ({ name := "build-rtabmap" } :: { name := "build-depthai" } :: stepsAfter) := rfl
  have hlength : stepsBefore.length = rtabmapIdx := rfl
  conv_lhs => rw [hsplit]
  rw [List.drop_append_of_le_length (by omega)]

theorem names_drop_eq (hk : k ≤ rtabmapIdx) : stepNames.drop k =
    (stepsBefore.drop k).map (·.name) ++ (builds ++ stepsAfter.map (·.name)) := by
  rw [stepNames, ← List.map_drop, drop_eq hk, List.map_append]
  rfl

theorem isGate_eq : ∀ s ∈ bringupSteps, isGate s.name = s.gate := by decide

theorem parallel_regular (b : Behaviour) (continueOnError : Bool) (hk : k ≤ rtabmapIdx) :
    Regular b (stepNames.drop k) (b.run (both (visits continueOnError (stepsBefore.drop k))
      (both (buildTurn continueOnError) (visits continueOnError stepsAfter)))) := by
  have hbefore : Regular b ((stepsBefore.drop k).map (·.name))
      (b.run (visits continueOnError (stepsBefore.drop k))) :=
    visits_regular fun s hs => isGate_eq s (List.mem_of_mem_take (List.mem_of_mem_drop hs))
  have hafter : Regular b (stepsAfter.map (·.name)) (b.run (visits continueOnError stepsAfter)) :=
    visits_regular fun s hs => isGate_eq s (List.mem_of_mem_drop hs)
  rw [names_drop_eq hk]
  apply Regular.both (hbefore.mono (by simp))
  apply Regular.both
  · exact buildTurn_regular.mono (by simp)
  · exact hafter.mono (by simp)

theorem parallel_ok_nil_iff (b : Behaviour) (continueOnError : Bool) (hk : k ≤ rtabmapIdx) :
    (b.run (both (visits continueOnError (stepsBefore.drop k))
      (both (buildTurn continueOnError) (visits continueOnError stepsAfter)))).result = .ok [] ↔
    (∀ name ∈ builds, Passes b name ∨ Loses b name) ∧
      ∀ s ∈ bringupSteps.drop k, s.name ∉ builds → Passes b s.name := by
  have hbefore : ∀ s ∈ stepsBefore, s.name ∉ builds := by decide
  have hafter : ∀ s ∈ stepsAfter, s.name ∉ builds := by decide
  rw [both_ok_nil_iff, both_ok_nil_iff, visits_ok_nil_iff, visits_ok_nil_iff, buildTurn_ok_nil_iff,
    drop_eq hk]
  constructor
  · rintro ⟨h1, h2, h3⟩
    refine ⟨h2, fun s hs hname => ?_⟩
    simp only [List.mem_append, List.mem_cons] at hs
    rcases hs with hs | rfl | rfl | hs
    · exact h1 s hs
    · exact absurd (by decide) hname
    · exact absurd (by decide) hname
    · exact h3 s hs
  · rintro ⟨h2, h⟩
    refine ⟨fun s hs => h s (by simp [hs]) (hbefore s (List.mem_of_mem_drop hs)), h2,
      fun s hs => h s (by simp [hs]) (hafter s hs)⟩

theorem sequential_events (ht : target fromStep = some k) :
    (b.run (bringupCommand (optionsOf fromStep continueOnError false))).events =
      (b.run (visits continueOnError (bringupSteps.drop k))).events := by
  obtain ⟨idx, rfl, hcommand⟩ := command_of_target continueOnError false ht
  rw [hcommand, (run_finish b _).1, loop_sequential]

theorem parallel_run (b : Behaviour) (continueOnError : Bool) (ht : target fromStep = some k)
    (hk : k ≤ rtabmapIdx) :
    (b.run (bringupCommand (optionsOf fromStep continueOnError true))).events =
        (b.run (both (visits continueOnError (stepsBefore.drop k))
          (both (buildTurn continueOnError) (visits continueOnError stepsAfter)))).events ∧
      ((b.run (bringupCommand (optionsOf fromStep continueOnError true))).result = .ok () ↔
        (b.run (both (visits continueOnError (stepsBefore.drop k))
          (both (buildTurn continueOnError) (visits continueOnError stepsAfter)))).result =
            .ok []) := by
  obtain ⟨idx, rfl, hcommand⟩ := command_of_target continueOnError true ht
  rw [hcommand, loop_parallel hk]
  exact run_finish b _

theorem parallel_started (hk : k ≤ rtabmapIdx)
    (h : (b.run (both (visits continueOnError (stepsBefore.drop k))
      (both (buildTurn continueOnError) (visits continueOnError stepsAfter)))).result = .ok []) :
    startedOf (b.run (both (visits continueOnError (stepsBefore.drop k))
      (both (buildTurn continueOnError) (visits continueOnError stepsAfter)))).events =
        (stepNames.drop k).filter fun name => b.check name = .ok false := by
  rw [both_ok_nil_iff, both_ok_nil_iff] at h
  obtain ⟨hbefore, hbuilds, hafter⟩ := h
  rw [started_both hbefore, started_both hbuilds, visits_started (visits_ok_nil_iff.mp hbefore),
    buildTurn_started (buildTurn_ok_nil_iff.mp hbuilds),
    visits_started (visits_ok_nil_iff.mp hafter), names_drop_eq hk, List.filter_append,
    List.filter_append]

theorem mem_events_bind {α β : Type} {p : BringupM α} {e : Event} (he : e ∈ (b.run p).events)
    (f : α → BringupM β) : e ∈ (b.run (p >>= f)).events := by
  rw [run_bind]
  cases hp : (b.run p).result with
  | error x =>
    rw [Outcome.andThen_error hp]
    exact he
  | ok a =>
    rw [Outcome.andThen_ok hp]
    exact List.mem_append_left _ he

/-- A run that starts behind the builds checks `build-rtabmap` all the same. -/
theorem checked_behind (ht : target fromStep = some k) (hk : rtabmapIdx < k) :
    .checked "build-rtabmap" ∈
      (b.run (bringupCommand (optionsOf fromStep continueOnError true))).events := by
  obtain ⟨idx, rfl, hcommand⟩ := command_of_target continueOnError true ht
  have hnone : stepsBefore.drop (idx.getD 0) = [] := List.drop_eq_nil_of_le (Nat.le_of_lt hk)
  rw [hcommand, (run_finish b _).1, loop_parallel_eq, hnone, visits, both_pure_nil]
  apply mem_events_bind
  change _ ∈ (b.run (parallelBuilds _ _ >>= _)).events
  apply mem_events_bind
  apply mem_events_bind
  rw [run_check]
  exact List.mem_singleton_self _

theorem passes_of_mem (hbuilds : ∀ name ∈ builds, Passes b name)
    (hothers : ∀ s ∈ bringupSteps.drop k, s.name ∉ builds → Passes b s.name) :
    ∀ s ∈ bringupSteps.drop k, Passes b s.name := by
  intro s hs
  by_cases hname : s.name ∈ builds
  · exact hbuilds _ hname
  · exact hothers s hs hname

theorem exists_step {name : String} (h : name ∈ stepNames.drop k) :
    ∃ s ∈ bringupSteps.drop k, s.name = name := by
  rw [stepNames, ← List.map_drop] at h
  exact List.mem_map.mp h

/-- Without a lost exception, a run from the builds or before keeps the contract. -/
theorem contract_of_target (ht : target fromStep = some k) (hk : k ≤ rtabmapIdx)
    (hlost : ¬ErrorLost b k) : Contract b fromStep continueOnError := by
  obtain ⟨hevents, hresult⟩ := parallel_run b continueOnError ht hk
  have hregular := parallel_regular b continueOnError hk
  constructor
  · intro k' ht' e he htake
    obtain rfl : k = k' := Option.some.inj (ht.symm.trans ht')
    rw [hevents] at he
    exact List.disjoint_take_drop (by decide) (le_refl k) htake (hregular.within e he)
  · intro hok s hs
    rw [hevents] at hs
    obtain ⟨hbuilds, hothers⟩ := (parallel_ok_nil_iff b continueOnError hk).mp (hresult.mp hok)
    have hpasses : ∀ name ∈ builds, Passes b name := by
      intro name hname
      rcases hbuilds name hname with h | h
      · exact h
      · exact absurd ⟨⟨name, hname, h⟩, hbuilds, hothers⟩ hlost
    obtain ⟨step, hstep, rfl⟩ := exists_step (hregular.within _ hs)
    rcases passes_of_mem hpasses hothers step hstep with h | h
    · rw [hregular.needed _ hs] at h
      cases h
    · exact h.2
  · intro hquiet
    rw [hevents] at hquiet ⊢
    have hok := hregular.quiet hquiet
    have hstarted := parallel_started hk hok
    obtain ⟨hbuilds, hothers⟩ := (parallel_ok_nil_iff b continueOnError hk).mp hok
    have hpasses : ∀ name ∈ builds, Passes b name := by
      intro name hname
      rcases hbuilds name hname with h | ⟨hcheck, message, hexecute⟩
      · exact h
      · have hmem : name ∈ (stepNames.drop k).filter fun name => b.check name = .ok false := by
          rw [List.mem_filter, names_drop_eq hk]
          exact ⟨by simp [hname], by simpa using hcheck⟩
        rw [← hstarted, mem_startedOf] at hmem
        exact .inr ⟨hcheck, hquiet.started name hmem⟩
    rw [hstarted, sequential_events ht, visits_started (passes_of_mem hpasses hothers), stepNames,
      ← List.map_drop]
  · rw [hevents]
    exact hregular.ordered

end Contract

/-- Parallel builds keep the sequential contract exactly when the run does not start behind them and
no exception of a build is lost in a run that is otherwise good. -/
theorem parallel_contract_iff (b : Behaviour) (fromStep : Option String) (continueOnError : Bool) :
    Contract b fromStep continueOnError ↔
      ∀ k, target fromStep = some k → k ≤ rtabmapIdx ∧ ¬ErrorLost b k := by
  constructor
  · intro h k ht
    have hk : k ≤ rtabmapIdx := by
      by_contra hlt
      have hbehind := h.skipped k ht _ (checked_behind ht (not_le.mp hlt))
      apply hbehind
      rw [List.mem_take_iff_getElem]
      exact ⟨rtabmapIdx, by simpa [stepNames, bringupSteps, rtabmapIdx] using hlt, rfl⟩
    refine ⟨hk, fun hlost => ?_⟩
    obtain ⟨name, hname, hcheck, message, hexecute⟩ := hlost.loses
    have hok := (parallel_ok_nil_iff b continueOnError hk).mpr ⟨hlost.builds, hlost.others⟩
    obtain ⟨hevents, hresult⟩ := parallel_run b continueOnError ht hk
    have hstarted : .started name ∈
        (b.run (bringupCommand (optionsOf fromStep continueOnError true))).events := by
      rw [hevents, ← mem_startedOf, parallel_started hk hok, List.mem_filter, names_drop_eq hk]
      exact ⟨by simp [hname], by simpa using hcheck⟩
    have hraised := h.success (hresult.mpr hok) name hstarted
    rw [hexecute] at hraised
    cases hraised
  · intro h
    cases ht : target fromStep with
    | none =>
      constructor <;> simp [command_unknown ht, ht, startedOf]
    | some k =>
      obtain ⟨hk, hlost⟩ := h k ht
      exact contract_of_target ht hk hlost

/-- A Jetson with everything in place, and a run that starts with the verification. -/
theorem parallel_checks_before_target :
    ¬ Contract ⟨fun _ => .ok true, fun _ => .ok (), false⟩ (some "verify") false := by
  intro hcontract
  have hbehind : rtabmapIdx < 15 := by decide
  exact hcontract.skipped 15 rfl _ (checked_behind rfl hbehind) (by decide)

end MowerRover.Cli.Bringup
