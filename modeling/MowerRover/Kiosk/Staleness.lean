import MowerRover.Kiosk.FrameStream
import MowerRover.Kiosk.Renderer

/-!
# Old data

The age of the data is a difference of two 32-bit ticks taken in 64 bits. It is
the true age until the counter wraps; between a wrap and the next frame every
age looks huge. A frame at tick zero looks like none at all.
-/

namespace MowerRover.Kiosk

open Effects Numeric Json

namespace World

/-- The age the check computes exceeds the threshold when the true age does or the counter has
wrapped since. -/
theorem threshold_lt_iff {now last : ℕ} (hle : last ≤ now) (hlt : now - last < 2 ^ 32) :
    Renderer.stalenessThresholdMs < (lvTickGet now).toUInt64 - (lvTickGet last).toUInt64 ↔
      lvTickGet now < lvTickGet last ∨ 5000 < now - last := by
  have hnow : (lvTickGet now).toNat = now % 2 ^ 32 := UInt32.toNat_ofNat'
  have hlast : (lvTickGet last).toNat = last % 2 ^ 32 := UInt32.toNat_ofNat'
  rw [UInt64.lt_iff_toNat_lt, UInt32.lt_iff_toNat_lt, UInt64.toNat_sub, UInt32.toNat_toUInt64,
    UInt32.toNat_toUInt64, hnow, hlast, Renderer.stalenessThresholdMs]
  have hthreshold : (5000 : UInt64).toNat = 5000 := rfl
  rw [hthreshold]
  omega

/-- What the renderer keeps of the last frame. -/
structure Remembers (w : World) : Prop where
  tick : w.renderer.lastDataTimeMs = (w.lastFrameMs.map fun t => (lvTickGet t).toUInt64).getD 0
  past : ∀ t, w.lastFrameMs = some t → t ≤ w.timeMs

theorem step_lastData (w : World) (e : Event) :
    (w.step e).renderer.lastDataTimeMs =
      if (w.renderer.polled e.callback).isSome then (lvTickGet (w.timeMs + e.after)).toUInt64
      else w.renderer.lastDataTimeMs := by
  obtain ⟨gap, cb⟩ := e
  cases cb with
  | socketPoll attempt recv =>
    simp only [step, Renderer.callback, Renderer.socketPollCb]
    cases w.renderer.polled (.socketPoll attempt recv) with
    | none => simp
    | some data =>
      simp only [Renderer.updateDashboard, Renderer.dashboardSetConnecting]
      split_ifs <;> simp_all
  | staleness =>
    simp only [step, Renderer.callback, Renderer.stalenessCb, Renderer.polled]
    split_ifs <;> simp_all [Renderer.dashboardSetConnecting, Renderer.dashboardSetStale]

theorem run_remembers (es : List Event) : Remembers (run es) := by
  have hstep : ∀ w e, Remembers w → Remembers (step w e) := by
    rintro w e ⟨htick, hpast⟩
    constructor
    · rw [step_lastData, htick, step]
      split_ifs <;> rfl
    · intro t ht
      rw [step] at ht ⊢
      dsimp only at ht ⊢
      split_ifs at ht with hframe
      · exact (Option.some.inj ht).ge
      · exact (hpast t ht).trans (Nat.le_add_right _ _)
  exact after_invariant step initial ⟨rfl, nofun⟩ hstep es

/-- A check of a connected client after a frame at `last`, with less than a wrap between them. -/
def Checks (w : World) (e : Event) (last : ℕ) : Prop :=
  e.callback = .staleness ∧ w.renderer.client.connected = true ∧ w.lastFrameMs = some last ∧
    w.timeMs + e.after - last < 2 ^ 32

/-- The age is read right: the counter has not wrapped since a frame at a tick other than zero, or
the data is old anyway; at tick zero, when the label is right already. -/
def ReadsAge (w : World) (e : Event) (last : ℕ) : Prop :=
  if lvTickGet last = 0 then w.renderer.staleVisible = true ↔ 5000 < w.timeMs + e.after - last
  else lvTickGet last ≤ lvTickGet (w.timeMs + e.after) ∨ 5000 < w.timeMs + e.after - last

theorem step_stale {w : World} (hw : Remembers w) {e : Event} {last : ℕ} (he : w.Checks e last) :
    ((w.step e).renderer.staleVisible = true ↔ 5000 < w.timeMs + e.after - last) ↔
      w.ReadsAge e last := by
  obtain ⟨hcb, hconnected, hlast, hage⟩ := he
  have htick := hw.tick
  rw [hlast, Option.map_some, Option.getD_some] at htick
  have hle : last ≤ w.timeMs + e.after := (hw.past last hlast).trans (Nat.le_add_right _ _)
  rw [step, hcb, Renderer.callback, Renderer.stalenessCb, if_neg (by simp [hconnected]), htick,
    ReadsAge]
  by_cases hzero : lvTickGet last = 0
  · rw [if_pos hzero, if_pos (by simp [hzero])]
  · have hne : (lvTickGet last).toUInt64 ≠ 0 := fun h => hzero (UInt32.toUInt64_inj.mp h)
    rw [if_neg hne, if_neg hzero, Renderer.dashboardSetStale, decide_eq_true_iff,
      threshold_lt_iff hle hage, ← UInt32.not_le]
    tauto

/-- Every check of the run shows the true staleness exactly when every check reads the age right. -/
theorem stale_shown_iff (es : List Event) :
    (∀ pre e post last, es = pre ++ e :: post → (run pre).Checks e last →
      ((run (pre ++ [e])).renderer.staleVisible = true ↔
        5000 < (run (pre ++ [e])).timeMs - last)) ↔
    ∀ pre e post last, es = pre ++ e :: post → (run pre).Checks e last →
      (run pre).ReadsAge e last := by
  have hstep (pre : List Event) {e : Event} {last : ℕ} (he : (run pre).Checks e last) :
      ((run (pre ++ [e])).renderer.staleVisible = true ↔
        5000 < (run (pre ++ [e])).timeMs - last) ↔ (run pre).ReadsAge e last := by
    rw [run, after_append_singleton]
    exact step_stale (run_remembers pre) he
  constructor
  · intro h pre e post last hes he
    exact (hstep pre he).mp (h pre e post last hes he)
  · intro h pre e post last hes he
    exact (hstep pre he).mpr (h pre e post last hes he)

/-- A frame just before the counter wraps, and a check a second and a half later. -/
theorem fresh_data_shown_stale :
    let attempt : Attempt := ⟨1000, true, true, true⟩
    let sent := frame 4 (encodeUtf8 ['\x7b', '\x7d'])
    let pre : List Event := [⟨100, .socketPoll attempt fun _ => .again⟩,
      ⟨2 ^ 32 - 1100, .socketPoll attempt (recvFrom sent 6)⟩]
    let e : Event := ⟨1500, .staleness⟩
    (run pre).Checks e (2 ^ 32 - 1000) ∧ (run (pre ++ [e])).renderer.staleVisible = true ∧
      ¬ 5000 < (run (pre ++ [e])).timeMs - (2 ^ 32 - 1000) := by
  intro attempt sent pre e
  exact ⟨⟨rfl, by decide +kernel, by decide +kernel, by decide +kernel⟩, by decide +kernel,
    by decide +kernel⟩

end World
end MowerRover.Kiosk
