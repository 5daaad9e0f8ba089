import MowerRover.Effects.Trace
import MowerRover.Numeric.Rounding
import MowerRover.Errors

/-!
# `open_link` with every end of its body

The generator behind `open_link`, driven by `contextlib.contextmanager`: the
exception of the body is thrown into the generator at its `yield`, which stands
inside the `try` of the retry loop. The surroundings answer each question of an
attempt by its number, and say how the body ends. An exception of the body and
one the generator or `contextlib` makes are told apart, since the caller of the
body is owed the very exception it raised.
-/

namespace MowerRover.Mavlink.Connection

open Effects

/-- What a body can raise: an `Exception`, or one of the classes outside it. -/
inductive Raised
  | exception (x : PyError)
  | keyboardInterrupt
  | systemExit (code : ℤ)
  deriving DecidableEq

inductive BodyEnd
  | returns
  | raises (x : Raised)
  deriving DecidableEq

/-- What leaves the `with` statement. -/
inductive Leaving
  /-- the exception object of the body -/
  | body (x : Raised)
  | own (x : PyError)
  deriving DecidableEq

inductive OpenOp
  | isSet (attempt : ℕ)
  | mavlinkConnection (attempt : ℕ)
  /-- answers whether there was a heartbeat within the timeout -/
  | waitHeartbeat (attempt : ℕ)
  | body
  | close
  /-- `shutdown_event.wait` -/
  | wait (attempt : ℕ) (seconds : ℚ)
  | sleep (seconds : ℚ)
  deriving DecidableEq

abbrev openSignature : Signature where
  Op := OpenOp
  Ans
    | .isSet _ | .wait _ _ => Bool
    | .mavlinkConnection _ => Except PyError Unit
    | .waitHeartbeat _ => Except PyError Bool
    | .body => BodyEnd
    | .close | .sleep _ => Unit

abbrev OpenM := Program openSignature Leaving

def ask (op : OpenOp) : OpenM (openSignature.Ans op) := Program.perform (S := openSignature) op

structure OpenConfig where
  endpoint : String
  retryAttempts : ℤ
  retryBackoffS : ℚ
  /-- a shutdown event is passed -/
  shutdownEvent : Bool

/-- How one round of the `try` block ends. -/
inductive AttemptEnd
  | returned
  /-- not caught by `except Exception` -/
  | left (x : Leaving)
  /-- caught, with the text of the exception and whether the body has been entered -/
  | failed (text : String) (entered : Bool)

/-- The `yield` with its `finally`. A second one is a protocol error for `contextlib`,
which then closes the generator. -/
def yieldConn (entered : Bool) : OpenM AttemptEnd := do
  if entered then
    ask .close
    pure (.left (.own (.runtime "generator didn't stop after throw()")))
  else
    match ← ask .body with
    | .returns =>
      ask .close
      pure .returned
    | .raises (.exception x) =>
      ask .close
      pure (.failed x.str true)
    | .raises x =>
      ask .close
      pure (.left (.body x))

/-- The `try` block of one attempt. -/
def oneAttempt (attempt : ℕ) (entered : Bool) : OpenM AttemptEnd := do
  match ← ask (.mavlinkConnection attempt) with
  | .error x => pure (.failed x.str entered)
  | .ok () =>
    match ← ask (.waitHeartbeat attempt) with
    | .error x => pure (.failed x.str entered)
    | .ok false => pure (.failed "no heartbeat within timeout" entered)
    | .ok true => yieldConn entered

def checkShutdown (config : OpenConfig) (attempt : ℕ) : OpenM Unit := do
  if config.shutdownEvent then
    if ← ask (.isSet attempt) then
      throw (.own (.connection "shutdown requested before connection attempt"))

/-- The pause before the next attempt, if there is one. -/
def backoff (config : OpenConfig) (remaining attempt : ℕ) : OpenM Unit := do
  if remaining ≠ 0 then
    if config.shutdownEvent then
      if ← ask (.wait attempt (config.retryBackoffS * attempt)) then
        throw (.own (.connection "shutdown requested during connection retry"))
    else ask (.sleep (config.retryBackoffS * attempt))

/-- The loop from an attempt on, with the attempts that are left. -/
def attempts (config : OpenConfig) : (remaining attempt : ℕ) → (entered : Bool) →
    (lastError : String) → OpenM Unit
  | 0, _, _, lastError =>
    throw (.own (.connection
      (s!"Failed to connect to {config.endpoint} after {config.retryAttempts} attempts: " ++
        lastError)))
  | remaining + 1, attempt, entered, _ => do
    checkShutdown config attempt
    match ← oneAttempt attempt entered with
    | .returned => pure ()
    | .left x => throw x
    | .failed text entered =>
      backoff config remaining attempt
      attempts config remaining (attempt + 1) entered text

/-- `with open_link(config, shutdown_event=..) as conn: body`. -/
def openLink (config : OpenConfig) : OpenM Unit :=
  attempts config config.retryAttempts.toNat 1 false "None"

/-- The answers of the surroundings; no question is asked twice. -/
abbrev Surroundings := Answers openSignature

def connects (env : Surroundings) (attempt : ℕ) : Bool :=
  (env (.mavlinkConnection attempt)).toBool &&
    match env (.waitHeartbeat attempt) with
    | .ok beat => beat
    | .error _ => false

def stopsBefore (config : OpenConfig) (env : Surroundings) (attempt : ℕ) : Bool :=
  config.shutdownEvent && env (.isSet attempt)

def stopsAfter (config : OpenConfig) (env : Surroundings) (remaining attempt : ℕ) : Bool :=
  remaining ≠ 0 && config.shutdownEvent && env (.wait attempt (config.retryBackoffS * attempt))

/-- Whether the surroundings let the loop get to its `yield`. -/
def reachesBody (config : OpenConfig) (env : Surroundings) : (remaining attempt : ℕ) → Bool
  | 0, _ => false
  | remaining + 1, attempt =>
    !stopsBefore config env attempt && (connects env attempt ||
      (!stopsAfter config env remaining attempt && reachesBody config env remaining (attempt + 1)))

section Runs

variable (config : OpenConfig) (env : Surroundings)

/-- Calls that do not enter the body. -/
def Outside (calls : List (Call openSignature)) : Prop := ∀ c ∈ calls, c.1 ≠ .body

theorem run_ask_bind {α : Type} (op : OpenOp) (f : openSignature.Ans op → OpenM α)
    (past : List (Call openSignature)) :
    (ask op >>= f).run env.handler past = (f (env op)).run env.handler (⟨op, env op⟩ :: past) :=
  env.run_perform_bind op f past

theorem oneAttempt_run_of_not_connects {attempt : ℕ} (h : connects env attempt = false)
    (entered : Bool) (past : List (Call openSignature)) :
    ∃ text calls, (oneAttempt attempt entered).run env.handler past =
      ⟨.ok (.failed text entered), calls ++ past, []⟩ ∧ Outside calls := by
  unfold connects at h
  rw [oneAttempt, run_ask_bind]
  cases hc : env (.mavlinkConnection attempt) with
  | error x =>
    exact ⟨x.str, [⟨.mavlinkConnection attempt, .error x⟩], rfl, by simp [Outside]⟩
  | ok u =>
    simp only
    rw [run_ask_bind]
    cases hb : env (.waitHeartbeat attempt) with
    | error x =>
      exact ⟨x.str, [⟨.waitHeartbeat attempt, .error x⟩, ⟨.mavlinkConnection attempt, .ok ()⟩],
        rfl, by simp [Outside]⟩
    | ok beat =>
      cases beat with
      | false =>
        exact ⟨_, [⟨.waitHeartbeat attempt, .ok false⟩, ⟨.mavlinkConnection attempt, .ok ()⟩],
          rfl, by simp [Outside]⟩
      | true => simp [hc, hb, Except.toBool] at h

theorem oneAttempt_run_of_connects {attempt : ℕ} (h : connects env attempt = true)
    (entered : Bool) (past : List (Call openSignature)) :
    (oneAttempt attempt entered).run env.handler past =
      (yieldConn entered).run env.handler
        (⟨.waitHeartbeat attempt, .ok true⟩ :: ⟨.mavlinkConnection attempt, .ok ()⟩ :: past) := by
  unfold connects at h
  rw [oneAttempt, run_ask_bind]
  cases hc : env (.mavlinkConnection attempt) with
  | error x => simp [hc, Except.toBool] at h
  | ok u =>
    simp only
    rw [run_ask_bind]
    cases hb : env (.waitHeartbeat attempt) with
    | error x => simp [hb] at h
    | ok beat =>
      cases beat with
      | false => simp [hb] at h
      | true => rfl

/-- A pause ends, or the shutdown event ends the loop. -/
def Paused (stops : Bool) (past : List (Call openSignature))
    (o : Outcome Leaving Unit (List (Call openSignature)) Empty) : Prop :=
  ∃ calls message, Outside calls ∧
    o = ⟨if stops then .error (.own (.connection message)) else .ok (), calls ++ past, []⟩

theorem checkShutdown_run (attempt : ℕ) (past : List (Call openSignature)) :
    Paused (stopsBefore config env attempt) past
      ((checkShutdown config attempt).run env.handler past) := by
  unfold stopsBefore checkShutdown
  cases config.shutdownEvent with
  | false => exact ⟨[], "", by simp [Outside], rfl⟩
  | true =>
    refine ⟨[⟨.isSet attempt, env (.isSet attempt)⟩],
      "shutdown requested before connection attempt", by simp [Outside], ?_⟩
    rw [if_pos rfl, run_ask_bind]
    generalize env (.isSet attempt) = answer
    cases answer <;> rfl

theorem backoff_run (remaining attempt : ℕ) (past : List (Call openSignature)) :
    Paused (stopsAfter config env remaining attempt) past
      ((backoff config remaining attempt).run env.handler past) := by
  unfold stopsAfter backoff
  by_cases hr : remaining = 0
  · exact ⟨[], "", by simp [Outside], by simp [hr]⟩
  cases config.shutdownEvent with
  | false => exact ⟨[⟨.sleep _, _⟩], "", by simp [Outside], by simp [hr]; rfl⟩
  | true =>
    refine ⟨[⟨.wait attempt (config.retryBackoffS * attempt),
      env (.wait attempt (config.retryBackoffS * attempt))⟩],
      "shutdown requested during connection retry", by simp [Outside], ?_⟩
    rw [if_pos hr, if_pos rfl, run_ask_bind]
    generalize env (.wait attempt (config.retryBackoffS * attempt)) = answer
    cases answer <;> simp [hr]

theorem Outside.append {calls calls' : List (Call openSignature)} (h : Outside calls)
    (h' : Outside calls') : Outside (calls ++ calls') :=
  fun c hc => (List.mem_append.mp hc).elim (h c) (h' c)

/-- What an attempt does after its body, if it has entered it. -/
def afterAttempt (remaining attempt : ℕ) : AttemptEnd → OpenM Unit
  | .returned => pure ()
  | .left x => throw x
  | .failed text entered => do
    backoff config remaining attempt
    attempts config remaining (attempt + 1) entered text

variable {env} (remaining : ℕ) {attempt : ℕ} (entered : Bool) (lastError : String)
  (past : List (Call openSignature))

theorem attempts_run_stopsBefore (h : stopsBefore config env attempt = true) :
    ∃ m calls, Outside calls ∧
      (attempts config (remaining + 1) attempt entered lastError).run env.handler past =
        ⟨.error (.own (.connection m)), calls ++ past, []⟩ := by
  obtain ⟨calls, message, hcalls, hcheck⟩ := checkShutdown_run config env attempt past
  refine ⟨message, calls, hcalls, ?_⟩
  rw [attempts, Program.run_bind, hcheck, if_pos h]
  rfl

theorem attempts_run_attempt (h : stopsBefore config env attempt = false) :
    ∃ calls, Outside calls ∧
      (attempts config (remaining + 1) attempt entered lastError).run env.handler past =
        ((oneAttempt attempt entered).run env.handler (calls ++ past)).andThen
          fun o s => (afterAttempt config remaining attempt o).run env.handler s := by
  obtain ⟨calls, message, hcalls, hcheck⟩ := checkShutdown_run config env attempt past
  refine ⟨calls, hcalls, ?_⟩
  rw [attempts, Program.run_bind, hcheck, if_neg (by simp [h])]
  simp only [Outcome.andThen_mk_ok, Outcome.after_nil]
  rw [Program.run_bind]
  rfl

theorem afterAttempt_run_failed (env : Surroundings) (attempt : ℕ) (text : String) :
    ∃ m calls, Outside calls ∧
      (afterAttempt config remaining attempt (.failed text entered)).run env.handler past =
        if stopsAfter config env remaining attempt then
          ⟨.error (.own (.connection m)), calls ++ past, []⟩
        else (attempts config remaining (attempt + 1) entered text).run env.handler
          (calls ++ past) := by
  obtain ⟨calls, message, hcalls, hpause⟩ := backoff_run config env remaining attempt past
  refine ⟨message, calls, hcalls, ?_⟩
  rw [afterAttempt, Program.run_bind, hpause]
  cases stopsAfter config env remaining attempt <;> rfl

/-- An attempt without a heartbeat. -/
theorem attempts_run_failed (hstop : stopsBefore config env attempt = false)
    (hconn : connects env attempt = false) :
    ∃ text m calls, Outside calls ∧
      (attempts config (remaining + 1) attempt entered lastError).run env.handler past =
        if stopsAfter config env remaining attempt then
          ⟨.error (.own (.connection m)), calls ++ past, []⟩
        else (attempts config remaining (attempt + 1) entered text).run env.handler
          (calls ++ past) := by
  obtain ⟨calls, hcalls, hrun⟩ :=
    attempts_run_attempt config remaining entered lastError past hstop
  obtain ⟨text, calls', hattempt, hcalls'⟩ :=
    oneAttempt_run_of_not_connects env hconn entered (calls ++ past)
  obtain ⟨m, calls'', hcalls'', hafter⟩ := afterAttempt_run_failed config remaining entered
    (calls' ++ (calls ++ past)) env attempt text
  refine ⟨text, m, calls'' ++ (calls' ++ calls), hcalls''.append (hcalls'.append hcalls), ?_⟩
  rw [hrun, hattempt]
  simp only [Outcome.andThen_mk_ok, Outcome.after_nil, hafter, List.append_assoc]

theorem attempts_run_yield (hstop : stopsBefore config env attempt = false)
    (hconn : connects env attempt = true) :
    ∃ calls, Outside calls ∧
      (attempts config (remaining + 1) attempt entered lastError).run env.handler past =
        ((yieldConn entered).run env.handler
          (⟨.waitHeartbeat attempt, .ok true⟩ :: (calls ++ past))).andThen
          fun o s => (afterAttempt config remaining attempt o).run env.handler s := by
  obtain ⟨calls, hcalls, hrun⟩ :=
    attempts_run_attempt config remaining entered lastError past hstop
  refine ⟨⟨.mavlinkConnection attempt, .ok ()⟩ :: calls, ?_, ?_⟩
  · exact List.forall_mem_cons.mpr ⟨by simp, hcalls⟩
  · rw [hrun, oneAttempt_run_of_connects env hconn]
    rfl

/-- The loop after the body has raised an `Exception`. -/
theorem attempts_run_entered (env : Surroundings) (remaining attempt : ℕ) (lastError : String)
    (past : List (Call openSignature)) :
    ∃ x calls, Outside calls ∧
      (attempts config remaining attempt true lastError).run env.handler past =
        ⟨.error (.own x), calls ++ past, []⟩ := by
  induction remaining generalizing attempt lastError past with
  | zero => exact ⟨_, [], by simp [Outside], rfl⟩
  | succ remaining ih =>
    cases hstop : stopsBefore config env attempt with
    | true =>
      obtain ⟨m, calls, hcalls, hrun⟩ :=
        attempts_run_stopsBefore config remaining true lastError past hstop
      exact ⟨_, calls, hcalls, hrun⟩
    | false =>
      cases hconn : connects env attempt with
      | true =>
        obtain ⟨calls, hcalls, hrun⟩ :=
          attempts_run_yield config remaining true lastError past hstop hconn
        refine ⟨.runtime "generator didn't stop after throw()",
          [⟨.close, ()⟩, ⟨.waitHeartbeat attempt, .ok true⟩] ++ calls, ?_, by rw [hrun]; rfl⟩
        exact Outside.append (by simp [Outside]) hcalls
      | false =>
        obtain ⟨text, m, calls, hcalls, hrun⟩ :=
          attempts_run_failed config remaining true lastError past hstop hconn
        cases hafter : stopsAfter config env remaining attempt with
        | true => exact ⟨_, calls, hcalls, by rw [hrun, hafter, if_pos rfl]⟩
        | false =>
          obtain ⟨x, rest, hrest, hnext⟩ := ih (attempt + 1) text (calls ++ past)
          refine ⟨x, rest ++ calls, hrest.append hcalls, ?_⟩
          rw [hrun, hafter, if_neg (by simp), hnext, List.append_assoc]

/-- The loop when no attempt gets to the body. -/
theorem attempts_run_unreached (attempt : ℕ)
    (h : reachesBody config env remaining attempt = false) :
    ∃ m calls, Outside calls ∧
      (attempts config remaining attempt false lastError).run env.handler past =
        ⟨.error (.own (.connection m)), calls ++ past, []⟩ := by
  induction remaining generalizing attempt lastError past with
  | zero => exact ⟨_, [], by simp [Outside], rfl⟩
  | succ remaining ih =>
    rw [reachesBody] at h
    cases hstop : stopsBefore config env attempt with
    | true => exact attempts_run_stopsBefore config remaining false lastError past hstop
    | false =>
      simp only [hstop, Bool.not_false, Bool.true_and, Bool.or_eq_false_iff] at h
      obtain ⟨text, m, calls, hcalls, hrun⟩ :=
        attempts_run_failed config remaining false lastError past hstop h.1
      cases hafter : stopsAfter config env remaining attempt with
      | true => exact ⟨m, calls, hcalls, by rw [hrun, hafter, if_pos rfl]⟩
      | false =>
        obtain ⟨m', rest, hrest, hnext⟩ := ih text (calls ++ past) (attempt + 1)
          (by simpa [hafter] using h.2)
        refine ⟨m', rest ++ calls, hrest.append hcalls, ?_⟩
        rw [hrun, hafter, if_neg (by simp), hnext, List.append_assoc]

/-- How the `with` statement ends once the body has been entered. -/
def EndsWith : BodyEnd → List (Call openSignature) → Except Leaving Unit → Prop
  | .returns, after, result => after = [⟨.close, ()⟩] ∧ result = .ok ()
  | .raises (.exception _), after, result =>
    Outside after ∧ ∃ x, result = .error (.own x)
  | .raises x, after, result => after = [⟨.close, ()⟩] ∧ result = .error (.body x)

/-- The loop when an attempt gets to the body. -/
theorem attempts_run_reached (attempt : ℕ) (h : reachesBody config env remaining attempt = true) :
    ∃ k after before result, Outside before ∧ EndsWith (env .body) after result ∧
      (attempts config remaining attempt false lastError).run env.handler past =
        ⟨result, after ++ ⟨.body, env .body⟩ :: ⟨.waitHeartbeat k, .ok true⟩ :: (before ++ past),
          []⟩ := by
  induction remaining generalizing attempt lastError past with
  | zero => simp [reachesBody] at h
  | succ remaining ih =>
    rw [reachesBody, Bool.and_eq_true, Bool.not_eq_true', Bool.or_eq_true, Bool.and_eq_true,
      Bool.not_eq_true'] at h
    obtain ⟨hstop, h⟩ := h
    cases hconn : connects env attempt with
    | true =>
      obtain ⟨calls, hcalls, hrun⟩ :=
        attempts_run_yield config remaining false lastError past hstop hconn
      rw [hrun, yieldConn, if_neg (by simp), run_ask_bind]
      match hbody : env .body with
      | .returns => exact ⟨attempt, _, calls, _, hcalls, ⟨rfl, rfl⟩, rfl⟩
      | .raises .keyboardInterrupt => exact ⟨attempt, _, calls, _, hcalls, ⟨rfl, rfl⟩, rfl⟩
      | .raises (.systemExit code) => exact ⟨attempt, _, calls, _, hcalls, ⟨rfl, rfl⟩, rfl⟩
      | .raises (.exception x) =>
        simp only
        rw [run_ask_bind, Program.run_pure]
        simp only [Outcome.andThen_mk_ok, Outcome.after_nil]
        obtain ⟨m, calls', hcalls', hafter⟩ := afterAttempt_run_failed config remaining true
          (⟨.close, ()⟩ :: ⟨.body, .raises (.exception x)⟩ :: ⟨.waitHeartbeat attempt, .ok true⟩ ::
            (calls ++ past)) env attempt x.str
        have hclose : Outside [⟨.close, ()⟩] := by simp [Outside]
        cases hstops : stopsAfter config env remaining attempt with
        | true =>
          refine ⟨attempt, calls' ++ [⟨.close, ()⟩], calls, .error (.own (.connection m)), hcalls,
            ⟨hcalls'.append hclose, _, rfl⟩, ?_⟩
          rw [hafter, hstops, if_pos rfl, List.append_assoc]
          rfl
        | false =>
          obtain ⟨y, calls'', hcalls'', hrest⟩ := attempts_run_entered config env remaining
            (attempt + 1) x.str (calls' ++ ⟨.close, ()⟩ :: ⟨.body, .raises (.exception x)⟩ ::
              ⟨.waitHeartbeat attempt, .ok true⟩ :: (calls ++ past))
          refine ⟨attempt, calls'' ++ (calls' ++ [⟨.close, ()⟩]), calls, .error (.own y), hcalls,
            ⟨hcalls''.append (hcalls'.append hclose), _, rfl⟩, ?_⟩
          rw [hafter, hstops, if_neg (by simp), hrest]
          simp
    | false =>
      obtain ⟨hafter, hrest⟩ := h.resolve_left (by simp [hconn])
      obtain ⟨text, m, calls, hcalls, hrun⟩ :=
        attempts_run_failed config remaining false lastError past hstop hconn
      obtain ⟨k, after, before, result, hbefore, hends, hnext⟩ :=
        ih text (calls ++ past) (attempt + 1) hrest
      refine ⟨k, after, before ++ calls, result, hbefore.append hcalls, hends, ?_⟩
      rw [hrun, hafter, if_neg (by simp), hnext, List.append_assoc]

end Runs

def IsBody (c : Call openSignature) : Prop := c.1 = .body

/-- The answer is a heartbeat in time. -/
def IsHeartbeat (c : Call openSignature) : Prop := ∃ k, c = ⟨.waitHeartbeat k, .ok true⟩

/-- A run of `open_link`: its calls, the latest first, and how the `with` statement ends. -/
structure Contract (calls : List (Call openSignature)) (result : Except Leaving Unit) : Prop where
  once : (calls.filter fun c => c.1 = .body).length ≤ 1
  heartbeatFirst : Preceded IsBody IsHeartbeat calls
  passesOn : ∀ x, ⟨.body, .raises x⟩ ∈ calls → result = .error (.body x) ∧
    ∃ after before, calls = after ++ ⟨.body, .raises x⟩ :: before ∧
      (∃ c ∈ after, c.1 = .close) ∧ ∀ c ∈ after, ∀ k, c.1 ≠ .mavlinkConnection k
  connectionError : ∀ m, result = .error (.own (.connection m)) → Outside calls

/-- The body can end in an `Exception` and some attempt gets to it. -/
def RaisesInBody (config : OpenConfig) (env : Surroundings) : Prop :=
  reachesBody config env config.retryAttempts.toNat 1 = true ∧
    ∃ x, env .body = .raises (.exception x)

theorem Outside.filter_eq_nil {calls : List (Call openSignature)} (h : Outside calls) :
    (calls.filter fun c => c.1 = .body) = [] := by
  rw [List.filter_eq_nil_iff]
  intro c hc
  simpa using h c hc

theorem Outside.preceded {calls : List (Call openSignature)} (h : Outside calls) :
    Preceded IsBody IsHeartbeat calls := by
  induction calls with
  | nil => trivial
  | cons c calls ih =>
    exact ⟨fun hc => absurd hc (h c List.mem_cons_self), ih fun d hd =>
      h d (List.mem_cons_of_mem c hd)⟩

theorem Outside.contract {calls : List (Call openSignature)} (h : Outside calls) (m : String) :
    Contract calls (.error (.own (.connection m))) where
  once := by simp [h.filter_eq_nil]
  heartbeatFirst := h.preceded
  passesOn x hx := absurd rfl (h _ hx)
  connectionError _ _ := h

/-- The calls of a run that enters the body and closes the connection right after it. -/
theorem contract_of_closed {b : BodyEnd} {k : ℕ} {before : List (Call openSignature)}
    {result : Except Leaving Unit} (hbefore : Outside before)
    (hresult : ∀ x, b = .raises x → result = .error (.body x))
    (hown : ∀ x, result ≠ .error (.own x)) :
    Contract ([⟨.close, ()⟩] ++ ⟨.body, b⟩ :: ⟨.waitHeartbeat k, .ok true⟩ :: before) result where
  once := by simp [hbefore.filter_eq_nil]
  heartbeatFirst := by
    refine ⟨fun h => absurd h (by simp [IsBody]), fun _ => ⟨_, List.mem_cons_self, k, rfl⟩,
      fun h => absurd h (by simp [IsBody]), hbefore.preceded⟩
  passesOn x hx := by
    have hb : b = .raises x := by
      simp only [List.cons_append, List.nil_append, List.mem_cons] at hx
      obtain h | h | h | h := hx
      · simp at h
      · simpa using h.symm
      · simp at h
      · exact absurd rfl (hbefore _ h)
    subst hb
    exact ⟨hresult x rfl, [⟨.close, ()⟩], _, rfl, ⟨_, List.mem_singleton_self _, rfl⟩, by simp⟩
  connectionError m h := absurd h (hown _)

def run (config : OpenConfig) (env : Surroundings) :
    Outcome Leaving Unit (List (Call openSignature)) Empty :=
  (openLink config).run env.handler []

theorem contract_of_not_raises {config : OpenConfig} {env : Surroundings}
    (h : ¬RaisesInBody config env) :
    Contract (run config env).state (run config env).result := by
  cases hreach : reachesBody config env config.retryAttempts.toNat 1 with
  | false =>
    obtain ⟨m, calls, hcalls, hrun⟩ :=
      attempts_run_unreached config config.retryAttempts.toNat "None" [] 1 hreach
    rw [run, openLink, hrun]
    simpa using hcalls.contract m
  | true =>
    obtain ⟨k, after, before, result, hbefore, hends, hrun⟩ :=
      attempts_run_reached config config.retryAttempts.toNat "None" [] 1 hreach
    rw [run, openLink, hrun]
    simp only [List.append_nil]
    match hbody : env .body with
    | .raises (.exception x) => exact absurd ⟨hreach, x, hbody⟩ h
    | .returns =>
      rw [hbody] at hends
      obtain ⟨rfl, rfl⟩ := hends
      exact contract_of_closed hbefore (by simp) (by simp)
    | .raises .keyboardInterrupt =>
      rw [hbody] at hends
      obtain ⟨rfl, rfl⟩ := hends
      exact contract_of_closed hbefore (by simp) (by simp)
    | .raises (.systemExit code) =>
      rw [hbody] at hends
      obtain ⟨rfl, rfl⟩ := hends
      exact contract_of_closed hbefore (by simp) (by simp)

theorem not_contract_of_raises {config : OpenConfig} {env : Surroundings}
    (h : RaisesInBody config env) :
    ¬Contract (run config env).state (run config env).result := by
  obtain ⟨hreach, x, hbody⟩ := h
  obtain ⟨k, after, before, result, hbefore, hends, hrun⟩ :=
    attempts_run_reached config config.retryAttempts.toNat "None" [] 1 hreach
  rw [hbody] at hends hrun
  obtain ⟨-, y, rfl⟩ := hends
  rw [run, openLink, hrun]
  intro hcontract
  have := (hcontract.passesOn (.exception x) (by simp)).1
  simp at this

/-- `open_link` keeps its contract exactly when no `Exception` leaves a body it has entered. -/
theorem openLink_contract_iff (config : OpenConfig) (env : Surroundings) :
    Contract (run config env).state (run config env).result ↔ ¬RaisesInBody config env :=
  ⟨fun h hraises => not_contract_of_raises hraises h, contract_of_not_raises⟩

/-- The first attempt succeeds and the body of `apply` leaves with `typer.Exit(code=1)`. -/
def exitInBody : Surroundings
  | .isSet _ | .wait _ _ => false
  | .mavlinkConnection _ => .ok ()
  | .waitHeartbeat _ => .ok true
  | .body => .raises (.exception (.exit 1 ""))
  | .close | .sleep _ => ()

theorem openLink_loses_exit :
    ¬Contract (run ⟨"udp:127.0.0.1:14550", 3, 1, false⟩ exitInBody).state
      (run ⟨"udp:127.0.0.1:14550", 3, 1, false⟩ exitInBody).result :=
  not_contract_of_raises ⟨by decide, _, rfl⟩

end MowerRover.Mavlink.Connection
