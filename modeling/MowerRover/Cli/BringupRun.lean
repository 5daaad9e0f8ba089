import MowerRover.Cli.Bringup

/-!
# Runs of the provisioning

The parts of a run follow each other, and a failing one ends it. A part that is
about some steps only checks and starts these, starts nothing behind a gate
that failed, and ends well when nothing raised. The steps visited one after the
other make such a part.
-/

namespace MowerRover.Cli.Bringup

open Effects

variable (b : Behaviour)

@[simp] theorem run_pure {α : Type} (a : α) : b.run (pure a) = ⟨.ok a, (), []⟩ := rfl

@[simp] theorem run_throw {α : Type} (x : Raised) :
    b.run (throw x : BringupM α) = ⟨.error x, (), []⟩ := rfl

theorem run_bind {α β : Type} (p : BringupM α) (f : α → BringupM β) :
    b.run (p >>= f) = (b.run p).andThen fun a _ => b.run (f a) := Program.run_bind _ p f ()

@[simp] theorem run_check (name : String) :
    b.run (check name) = ⟨b.check name, (), [.checked name]⟩ := by
  have hperform : b.run (perform (.check name)) = ⟨.ok (b.check name), (), [.checked name]⟩ := rfl
  rw [check, run_bind, hperform, Outcome.andThen_mk_ok, Behaviour.run, Program.run_ofExcept]
  rfl

@[simp] theorem run_execute (name : String) (jobs : Option ℕ) :
    b.run (perform (.execute name jobs)) = ⟨.ok (b.execute name), (), [.started name]⟩ := rfl

@[simp] theorem run_raced : b.run (perform .raced) = ⟨.ok b.depthaiFirst, (), []⟩ := rfl

/-- The steps that were started. -/
def startedOf (events : List Event) : List String :=
  events.filterMap fun
    | .started step => some step
    | .checked _ => none

theorem mem_startedOf {events : List Event} {s : String} :
    s ∈ startedOf events ↔ .started s ∈ events := by
  rw [startedOf, List.mem_filterMap]
  constructor
  · rintro ⟨e, he, hs⟩
    cases e with
    | checked step => cases hs
    | started step =>
      obtain rfl := Option.some.inj hs
      exact he
  · intro hs
    exact ⟨_, hs, rfl⟩

theorem startedOf_append (l r : List Event) : startedOf (l ++ r) = startedOf l ++ startedOf r :=
  List.filterMap_append

section Seq

variable {b} {p q : BringupM (List Failure)}

/-- Two parts with their failures together. -/
def both (p q : BringupM (List Failure)) : BringupM (List Failure) := do
  let failures ← p
  pure (failures ++ (← q))

theorem run_both_error {x : Raised} (hp : (b.run p).result = .error x) :
    b.run (both p q) = ⟨.error x, (), (b.run p).events⟩ := by
  rw [both, run_bind, Outcome.andThen_error hp]

theorem run_both_ok {failures : List Failure} (hp : (b.run p).result = .ok failures) :
    (b.run (both p q)).events = (b.run p).events ++ (b.run q).events ∧
      (b.run (both p q)).result = (failures ++ ·) <$> (b.run q).result := by
  rw [both, run_bind, Outcome.andThen_ok hp, run_bind]
  cases hq : (b.run q).result with
  | error x =>
    rw [Outcome.andThen_error hq]
    exact ⟨rfl, rfl⟩
  | ok others =>
    rw [Outcome.andThen_ok hq]
    exact ⟨by simp, rfl⟩

theorem both_ok_nil_iff : (b.run (both p q)).result = .ok [] ↔
    (b.run p).result = .ok [] ∧ (b.run q).result = .ok [] := by
  cases hp : (b.run p).result with
  | error x =>
    rw [run_both_error hp]
    simp
  | ok failures =>
    rw [(run_both_ok hp).2]
    cases (b.run q).result with
    | error x => simp
    | ok others => simp

theorem started_both (hp : (b.run p).result = .ok []) :
    startedOf (b.run (both p q)).events =
      startedOf (b.run p).events ++ startedOf (b.run q).events := by
  rw [(run_both_ok hp).1, startedOf_append]

end Seq

/-- No step that was checked or started has raised. -/
structure Quiet (events : List Event) : Prop where
  checked : ∀ s, .checked s ∈ events → ∃ satisfied, b.check s = .ok satisfied
  started : ∀ s, .started s ∈ events → b.execute s = .ok ()

def isGate (name : String) : Bool := bringupSteps.any fun s => s.name = name && s.gate

/-- A gate was started and has raised. -/
def GateFailed (e : Event) : Prop := ∃ s, e = .started s ∧ isGate s = true ∧ b.execute s ≠ .ok ()

/-- Behind a gate that failed nothing is started. -/
def After (e e' : Event) : Prop := GateFailed b e → ∀ s, e' ≠ .started s

/-- A part of a run that is about these steps only. -/
structure Regular (names : List String) (o : Outcome Raised (List Failure) Unit Event) : Prop where
  within : ∀ e ∈ o.events, e.step ∈ names
  needed : ∀ s, .started s ∈ o.events → b.check s = .ok false
  quiet : Quiet b o.events → o.result = .ok []
  ordered : o.events.Pairwise (After b)
  stops : ∀ e ∈ o.events, GateFailed b e → ∃ x, o.result = .error x

section Regular

variable {b} {names : List String} {p q : BringupM (List Failure)}

theorem Quiet.left {l r : List Event} (h : Quiet b (l ++ r)) : Quiet b l :=
  ⟨fun s hs => h.checked s (List.mem_append_left r hs),
    fun s hs => h.started s (List.mem_append_left r hs)⟩

theorem Quiet.right {l r : List Event} (h : Quiet b (l ++ r)) : Quiet b r :=
  ⟨fun s hs => h.checked s (List.mem_append_right l hs),
    fun s hs => h.started s (List.mem_append_right l hs)⟩

theorem regular_pure (names : List String) : Regular b names (b.run (pure [])) where
  within _ he := absurd he List.not_mem_nil
  needed _ hs := absurd hs List.not_mem_nil
  quiet _ := rfl
  ordered := .nil
  stops _ he := absurd he List.not_mem_nil

theorem Regular.mono {names' : List String} {o : Outcome Raised (List Failure) Unit Event}
    (h : Regular b names o) (hsub : names ⊆ names') : Regular b names' o :=
  ⟨fun e he => hsub (h.within e he), h.needed, h.quiet, h.ordered, h.stops⟩

/-- A gate that fails in the first part ends the run there. -/
theorem Regular.both (hp : Regular b names (b.run p)) (hq : Regular b names (b.run q)) :
    Regular b names (b.run (both p q)) := by
  cases hresult : (b.run p).result with
  | error x =>
    rw [run_both_error hresult]
    refine ⟨hp.within, hp.needed, fun hquiet => ?_, hp.ordered, fun _ _ _ => ⟨x, rfl⟩⟩
    rw [hp.quiet hquiet] at hresult
    cases hresult
  | ok failures =>
    obtain ⟨hevents, hboth⟩ := run_both_ok (q := q) hresult
    have hnoGate : ∀ e ∈ (b.run p).events, ¬GateFailed b e := by
      intro e he hgate
      obtain ⟨x, hx⟩ := hp.stops e he hgate
      rw [hresult] at hx
      cases hx
    constructor
    · intro e he
      rw [hevents] at he
      exact (List.mem_append.mp he).elim (hp.within e) (hq.within e)
    · intro s hs
      rw [hevents] at hs
      exact (List.mem_append.mp hs).elim (hp.needed s) (hq.needed s)
    · intro hquiet
      rw [hevents] at hquiet
      exact both_ok_nil_iff.mpr ⟨hp.quiet hquiet.left, hq.quiet hquiet.right⟩
    · rw [hevents]
      apply List.pairwise_append.mpr
      exact ⟨hp.ordered, hq.ordered, fun e he _ _ hgate => absurd hgate (hnoGate e he)⟩
    · intro e he hgate
      rw [hevents] at he
      rcases List.mem_append.mp he with he | he
      · exact absurd hgate (hnoGate e he)
      · obtain ⟨x, hx⟩ := hq.stops e he hgate
        exact ⟨x, by rw [hboth, hx]; rfl⟩

end Regular

/-- The step is satisfied or succeeds. -/
def Passes (name : String) : Prop :=
  b.check name = .ok true ∨ b.check name = .ok false ∧ b.execute name = .ok ()

def visit (continueOnError : Bool) (s : BringupStep) : BringupM (List Failure) := do
  if ← check s.name then pure [] else executeStep continueOnError s

def visits (continueOnError : Bool) : List BringupStep → BringupM (List Failure)
  | [] => pure []
  | s :: rest => both (visit continueOnError s) (visits continueOnError rest)

section Visit

variable {b} {continueOnError : Bool} {s : BringupStep}

/-- A step that is not checked in peace, is satisfied, or is started. -/
theorem visit_cases (continueOnError : Bool) (s : BringupStep) :
    (∃ x, b.check s.name = .error x ∧
      b.run (visit continueOnError s) = ⟨.error x, (), [.checked s.name]⟩) ∨
    (b.check s.name = .ok true ∧
      b.run (visit continueOnError s) = ⟨.ok [], (), [.checked s.name]⟩) ∨
    (b.check s.name = .ok false ∧ b.execute s.name = .ok () ∧
      b.run (visit continueOnError s) = ⟨.ok [], (), [.checked s.name, .started s.name]⟩) ∨
    (b.check s.name = .ok false ∧ b.execute s.name ≠ .ok () ∧ s.gate = false ∧ ∃ message,
      b.run (visit continueOnError s) =
        ⟨.ok [(s.name, message)], (), [.checked s.name, .started s.name]⟩) ∨
    (b.check s.name = .ok false ∧ b.execute s.name ≠ .ok () ∧ ∃ x,
      b.run (visit continueOnError s) = ⟨.error x, (), [.checked s.name, .started s.name]⟩) := by
  have hrun : b.run (visit continueOnError s) = (⟨b.check s.name, (), [.checked s.name]⟩ :
      Outcome Raised Bool Unit Event).andThen fun satisfied _ =>
        b.run (if satisfied then pure [] else executeStep continueOnError s) := by
    rw [visit, run_bind, run_check]
  cases hcheck : b.check s.name with
  | error x => exact .inl ⟨x, rfl, by rw [hrun, hcheck, Outcome.andThen_mk_error]⟩
  | ok satisfied =>
    rw [hcheck, Outcome.andThen_mk_ok] at hrun
    cases satisfied with
    | true => exact .inr (.inl ⟨rfl, by rw [hrun]; rfl⟩)
    | false =>
      rw [if_neg (by decide), executeStep, run_bind, run_execute, Outcome.andThen_mk_ok] at hrun
      cases hexecute : b.execute s.name with
      | ok u => exact .inr (.inr (.inl ⟨rfl, rfl, by rw [hrun, hexecute]; rfl⟩))
      | error x =>
        rw [hexecute] at hrun
        dsimp only at hrun
        cases hmessage : x.message with
        | none =>
          rw [hmessage] at hrun
          exact .inr (.inr (.inr (.inr ⟨rfl, by simp, x, by rw [hrun]; rfl⟩)))
        | some message =>
          rw [hmessage] at hrun
          dsimp only at hrun
          split_ifs at hrun with hstop
          · exact .inr (.inr (.inr (.inr ⟨rfl, by simp, x, by rw [hrun]; rfl⟩)))
          · have hgate : s.gate = false := by
              cases hg : s.gate with
              | false => rfl
              | true => simp [hg] at hstop
            exact .inr (.inr (.inr (.inl ⟨rfl, by simp, hgate, message, by rw [hrun]; rfl⟩)))

theorem visit_ok_nil_iff :
    (b.run (visit continueOnError s)).result = .ok [] ↔ Passes b s.name := by
  rcases visit_cases (b := b) continueOnError s with ⟨x, hc, hrun⟩ | ⟨hc, hrun⟩ | ⟨hc, hx, hrun⟩ |
    ⟨hc, hx, -, message, hrun⟩ | ⟨hc, hx, x, hrun⟩ <;> simp [Passes, *]

theorem visit_started (h : Passes b s.name) : startedOf (b.run (visit continueOnError s)).events =
    if b.check s.name = .ok false then [s.name] else [] := by
  rcases visit_cases (b := b) continueOnError s with ⟨x, hc, hrun⟩ | ⟨hc, hrun⟩ | ⟨hc, hx, hrun⟩ |
    ⟨hc, hx, -, message, hrun⟩ | ⟨hc, hx, x, hrun⟩
  · simp [Passes, hc] at h
  · simp [hrun, hc, startedOf]
  · simp [hrun, hc, startedOf]
  · simp [Passes, hc, hx] at h
  · simp [Passes, hc, hx] at h

theorem after_checked (name : String) (e : Event) : After b (.checked name) e := by
  rintro ⟨s, hs, -⟩
  cases hs

theorem regular_checked {name : String} {result : Except Raised (List Failure)}
    (hquiet : (∃ satisfied, b.check name = .ok satisfied) → result = .ok []) :
    Regular b [name] ⟨result, (), [.checked name]⟩ where
  within e he := by simp_all [Event.step]
  needed s hs := by simp at hs
  quiet h := hquiet (h.checked name List.mem_cons_self)
  ordered := List.pairwise_singleton _ _
  stops e he hgate := by
    obtain rfl := List.mem_singleton.mp he
    obtain ⟨s, hs, -⟩ := hgate
    cases hs

theorem regular_started {name : String} {result : Except Raised (List Failure)}
    (hcheck : b.check name = .ok false) (hquiet : b.execute name = .ok () → result = .ok [])
    (hstops : isGate name = true → b.execute name ≠ .ok () → ∃ x, result = .error x) :
    Regular b [name] ⟨result, (), [.checked name, .started name]⟩ where
  within e he := by
    rcases List.mem_pair.mp he with rfl | rfl <;> exact List.mem_cons_self
  needed s hs := by
    obtain rfl : s = name := by simpa using hs
    exact hcheck
  quiet h := hquiet (h.started name (by simp))
  ordered := List.pairwise_pair.mpr (after_checked name _)
  stops e he hgate := by
    obtain ⟨s, rfl, hg, hx⟩ := hgate
    obtain rfl : s = name := by simpa using he
    exact hstops hg hx

theorem visit_regular (hgate : isGate s.name = s.gate) :
    Regular b [s.name] (b.run (visit continueOnError s)) := by
  rcases visit_cases (b := b) continueOnError s with ⟨x, hc, hrun⟩ | ⟨hc, hrun⟩ | ⟨hc, hx, hrun⟩ |
    ⟨hc, hx, hg, message, hrun⟩ | ⟨hc, hx, x, hrun⟩ <;> rw [hrun]
  · apply regular_checked
    rintro ⟨satisfied, hsatisfied⟩
    rw [hc] at hsatisfied
    cases hsatisfied
  · exact regular_checked fun _ => rfl
  · exact regular_started hc (fun _ => rfl) fun _ h => absurd hx h
  · apply regular_started hc (fun h => absurd h hx)
    intro h
    rw [hgate, hg] at h
    cases h
  · exact regular_started hc (fun h => absurd h hx) fun _ _ => ⟨x, rfl⟩

variable {steps : List BringupStep}

theorem visits_ok_nil_iff : (b.run (visits continueOnError steps)).result = .ok [] ↔
    ∀ s ∈ steps, Passes b s.name := by
  induction steps with
  | nil => simp [visits]
  | cons s rest ih => rw [visits, both_ok_nil_iff, visit_ok_nil_iff, ih, List.forall_mem_cons]

theorem visits_started (h : ∀ s ∈ steps, Passes b s.name) :
    startedOf (b.run (visits continueOnError steps)).events =
      (steps.map (·.name)).filter fun name => b.check name = .ok false := by
  induction steps with
  | nil => rfl
  | cons s rest ih =>
    rw [List.forall_mem_cons] at h
    rw [visits, started_both (visit_ok_nil_iff.mpr h.1), visit_started h.1, ih h.2, List.map_cons,
      List.filter_cons]
    simp only [decide_eq_true_eq]
    split_ifs <;> rfl

theorem visits_regular (hgate : ∀ s ∈ steps, isGate s.name = s.gate) :
    Regular b (steps.map (·.name)) (b.run (visits continueOnError steps)) := by
  induction steps with
  | nil => exact regular_pure []
  | cons s rest ih =>
    rw [List.forall_mem_cons] at hgate
    apply Regular.both
    · exact (visit_regular hgate.1).mono (by simp)
    · exact (ih hgate.2).mono (by simp)

end Visit

end MowerRover.Cli.Bringup
