import MowerRover.Kiosk.FrameStream
import MowerRover.Kiosk.Renderer

/-!
# The connecting overlay

The overlay goes up whenever a staleness check finds the connection lost, and
goes down with the very first frame only. A check that finds it lost after the
first frame puts it up for good.
-/

namespace MowerRover.Kiosk

open Effects Numeric Json

namespace World

theorem step_firstFrame (w : World) (e : Event) :
    (w.step e).renderer.firstFrameReceived = true ↔
      w.renderer.firstFrameReceived = true ∨ w.Delivers e := by
  obtain ⟨gap, cb⟩ := e
  cases cb with
  | socketPoll attempt recv =>
    simp only [step, Renderer.callback, Renderer.socketPollCb, Delivers]
    cases w.renderer.polled (.socketPoll attempt recv) with
    | none => simp
    | some data =>
      cases hfirst : w.renderer.firstFrameReceived <;>
        simp [Renderer.updateDashboard, Renderer.dashboardSetConnecting]
  | staleness =>
    simp only [step, Renderer.callback, Renderer.stalenessCb, Delivers, Renderer.polled]
    split_ifs <;> simp [Renderer.dashboardSetConnecting, Renderer.dashboardSetStale]

/-- The overlay is up although a frame has been shown. -/
def Stuck (w : World) : Prop :=
  w.renderer.firstFrameReceived = true ∧ w.renderer.overlayVisible = true

/-- A check that finds the connection lost after a frame has been shown. -/
def LosesAfterFrame (w : World) (e : Event) : Prop :=
  w.renderer.firstFrameReceived = true ∧ w.FindsLost e

theorem step_stuck (w : World) (e : Event) :
    (w.step e).Stuck ↔ w.Stuck ∨ w.LosesAfterFrame e := by
  obtain ⟨gap, cb⟩ := e
  cases cb with
  | socketPoll attempt recv =>
    simp only [step, Renderer.callback, Renderer.socketPollCb, Stuck, LosesAfterFrame, FindsLost]
    cases w.renderer.polled (.socketPoll attempt recv) with
    | none => simp
    | some data =>
      cases hfirst : w.renderer.firstFrameReceived <;>
        simp [Renderer.updateDashboard, Renderer.dashboardSetConnecting]
  | staleness =>
    simp only [step, Renderer.callback, Renderer.stalenessCb, Stuck, LosesAfterFrame, FindsLost]
    cases hconnected : w.renderer.client.connected with
    | false => simp [Renderer.dashboardSetConnecting]; tauto
    | true => split_ifs <;> simp_all [Renderer.dashboardSetStale]

theorem step_overlay {w : World} {e : Event} (he : w.Delivers e) :
    (w.step e).renderer.overlayVisible = false ↔ ¬ w.Stuck := by
  have hfirst : (w.step e).renderer.firstFrameReceived = true := (step_firstFrame w e).mpr (.inr he)
  have hlost : ¬ w.LosesAfterFrame e := by
    rintro ⟨-, hcb, -⟩
    rw [Delivers, hcb] at he
    cases he
  have hstuck := step_stuck w e
  rw [Stuck, hfirst] at hstuck
  simp only [true_and, hlost, or_false] at hstuck
  rw [← hstuck, Bool.not_eq_true]

theorem firstFrame_iff (es : List Event) :
    (run es).renderer.firstFrameReceived = true ↔ (run es).lastFrameMs.isSome = true := by
  have hstep : ∀ w e, (w.renderer.firstFrameReceived = true ↔ w.lastFrameMs.isSome = true) →
      ((step w e).renderer.firstFrameReceived = true ↔ (step w e).lastFrameMs.isSome = true) := by
    intro w e hw
    rw [step_firstFrame, hw, Delivers, step]
    split_ifs with h <;> simp [h]
  exact after_invariant step initial (by simp [initial, Renderer.initial]) hstep es

theorem stuck_iff (es : List Event) :
    (run es).Stuck ↔ Happened step initial LosesAfterFrame es :=
  flag_iff_happened (by simp [Stuck, initial, Renderer.initial]) step_stuck es

/-- Every frame of the run finds the overlay down after it exactly when no check that finds the
connection lost comes after one frame and before another. -/
theorem overlay_hidden_iff (es : List Event) :
    (∀ pre e post, es = pre ++ e :: post → (run pre).Delivers e →
      (run (pre ++ [e])).renderer.overlayVisible = false) ↔
    ∀ pre d mid e post, es = pre ++ d :: mid ++ e :: post → (run pre).lastFrameMs.isSome = true →
      (run pre).FindsLost d → ¬ (run (pre ++ d :: mid)).Delivers e := by
  constructor
  · intro h pre d mid e post hes hframe hlost hdelivers
    have hhidden := h (pre ++ d :: mid) e post hes hdelivers
    rw [run, after_append_singleton, step_overlay hdelivers, stuck_iff] at hhidden
    exact hhidden ⟨pre, d, mid, rfl, (firstFrame_iff pre).mpr hframe, hlost⟩
  · intro h pre e post hes hdelivers
    rw [run, after_append_singleton, step_overlay hdelivers, stuck_iff]
    rintro ⟨pre, d, mid, rfl, hframe, hlost⟩
    exact h pre d mid e post hes ((firstFrame_iff pre).mp hframe) hlost hdelivers

/-- A frame, a lost connection that a check finds, and a frame on the next connection. -/
theorem overlay_stays_up :
    let first : Attempt := ⟨1000, true, true, true⟩
    let second : Attempt := ⟨2000, true, true, true⟩
    let sent := frame 4 (encodeUtf8 ['\x7b', '\x7d'])
    let pre : List Event := [⟨100, .socketPoll first fun _ => .again⟩,
      ⟨100, .socketPoll first (recvFrom sent 6)⟩, ⟨100, .socketPoll first fun _ => .closed⟩,
      ⟨100, .staleness⟩, ⟨100, .socketPoll second fun _ => .again⟩]
    let e : Event := ⟨100, .socketPoll second (recvFrom sent 6)⟩
    (run pre).Delivers e ∧ (run (pre ++ [e])).renderer.overlayVisible = true := by
  intro first second sent pre e
  exact ⟨by unfold Delivers; decide +kernel, by decide +kernel⟩

end World
end MowerRover.Kiosk
