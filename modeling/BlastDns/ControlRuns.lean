import BlastDns.GlobalCeiling
import BlastDns.LaneCoherence

/-!
Whole runs of the controller from a fresh start, over any stream of tick
durations, times and counters. The counters are not assumed to be monotone:
every difference the controller takes saturates at zero.
-/

namespace BlastDns.ControlRuns

open Limiter LaneTick Controller GlobalCeiling LaneCoherence Runs

variable {n : ℕ}

/-- `states` is what the controller goes through on `inputs`, without a panic. -/
structure ControlRun (ceiling : ℚ) (inputs : ℕ → TickInput n) (states : ℕ → Control n) :
    Prop where
  fresh : Control.new n ceiling = some (states 0)
  ticks : Run Control.tick inputs states

def Sound (ceiling : ℚ) (control : Control n) : Prop :=
  Agrees ceiling control.controller.toGlobalBrake ∧ ∀ i, Coherent (control.lane i)

theorem sound_fresh {ceiling : ℚ} {start : Control n}
    (fresh : Control.new n ceiling = some start) : 0 < ceiling ∧ Sound ceiling start := by
  rcases Control.new_some fresh with ⟨positive, brake, lanes⟩
  refine ⟨positive, ?_, ?_⟩
  · rw [brake]
    exact ⟨rfl, fun _ => rfl, by simp⟩
  · intro i
    rw [lanes i]
    exact coherent_fresh

theorem sound_tick {ceiling : ℚ} (positive : 0 < ceiling) (control : Control n)
    (input : TickInput n) (sound : Sound ceiling control) :
    ∃ after, control.tick input = some after ∧ Sound ceiling after := by
  have steps : ∀ i, ∃ lane, Control.resolverBody input i (control.lane i) = some lane ∧
      Coherent lane := fun i => tick_coherent (sound.2 i) _ _ _ _
  rcases adjust_global_agrees positive sound.1 input.outcomes input.seconds
    (control.tickTotals input).attempted with ⟨brake, adjusted, agreed, _⟩
  have ticks : ∃ after, control.tick input = some after :=
    Control.tick_exists control input (fun i => (steps i).imp fun _ step => step.1)
      ⟨brake, adjusted⟩
  rcases ticks with ⟨after, ticked⟩
  refine ⟨after, ticked, ?_, ?_⟩
  · have same := Control.tick_global ticked
    rw [adjusted] at same
    rw [← Option.some.inj same]
    exact agreed
  · intro i
    rcases steps i with ⟨lane, stepped, coherent⟩
    have same := Control.tick_lane ticked i
    rw [stepped] at same
    rw [← Option.some.inj same]
    exact coherent

theorem new_exists {ceiling : ℚ} (positive : 0 < ceiling) :
    ∃ start : Control n, Control.new n ceiling = some start := by
  simp [Control.new, RateLimiter.new, interval_for_pos positive, interval_for_pos unlimited_pos]

theorem control_run_exists {ceiling : ℚ} (positive : 0 < ceiling) (inputs : ℕ → TickInput n) :
    ∃ states, ControlRun ceiling inputs states := by
  rcases new_exists (n := n) positive with ⟨start, fresh⟩
  rcases run_exists (Sound ceiling) (sound_tick positive) start (sound_fresh fresh).2 inputs with
    ⟨states, first, run, _⟩
  exact ⟨states, by rw [first]; exact fresh, run⟩

theorem control_run_sound {ceiling : ℚ} {inputs : ℕ → TickInput n} {states : ℕ → Control n}
    (run : ControlRun ceiling inputs states) : ∀ time, Sound ceiling (states time) := by
  rcases sound_fresh run.fresh with ⟨positive, start⟩
  apply run_invariant (Sound ceiling) _ run.ticks start
  intro before input after sound ticked
  rcases sound_tick positive before input sound with ⟨other, same, kept⟩
  rw [ticked] at same
  rwa [Option.some.inj same]

/-- The controller never panics, and in every state of its run each resolver's
edge, undo pair, judge and pacing belong together. -/
theorem controller_stays_coherent {ceiling : ℚ} (positive : 0 < ceiling)
    (inputs : ℕ → TickInput n) :
    (∃ states, ControlRun ceiling inputs states) ∧
    ∀ states, ControlRun ceiling inputs states → ∀ time i,
      Coherent ((states time).lane i) ∧
      1 ≤ ((states time).limiters i).intervalNs ∧
      ((states time).limiters i).intervalNs ≤ 10 ^ 9 := by
  refine ⟨control_run_exists positive inputs, ?_⟩
  intro states run time i
  have coherent := (control_run_sound run time).2 i
  exact ⟨coherent, coherent_interval_range coherent.paced⟩

/-- Five seconds a tick, sixty of the hundred queries sent in each of them lost. -/
def lossyInputs (time : ℕ) : TickInput 1 where
  elapsedNs := 5 * 10 ^ 9
  now := time * (5 * 10 ^ 9)
  resolvers _ :=
    { resolver := .v4 ⟨127, 0, 0, 1⟩ 53
      requestTimeoutNs := 10 ^ 9
      purgatoryThreshold := 0
      purgatorySentenceNs := 0
      inflight := 1
      limiter := ⟨1⟩
      attempted := 100 * time
      timeout := 60 * time
      answered := 40 * time }
  outcomes := { completed := 100 * time, failed := 60 * time }
  waiting := 0

theorem controller_stays_coherent_lossy :
    ∃ states, ControlRun (1 / 2) lossyInputs states ∧
      ∀ time i, Coherent ((states time).lane i) := by
  have positive : (0 : ℚ) < 1 / 2 := by norm_num
  rcases controller_stays_coherent positive lossyInputs with ⟨⟨states, run⟩, coherent⟩
  exact ⟨states, run, fun time i => (coherent states run time i).1⟩

/-- The ceiling is a hard cap in every state, and a tick may change the limit only
with a full window, downward when that is congested and never upward when more
than half of it failed. -/
theorem ceiling_is_hard_cap {ceiling : ℚ} (positive : 0 < ceiling) (inputs : ℕ → TickInput n) :
    (∃ states, ControlRun ceiling inputs states) ∧
    ∀ states, ControlRun ceiling inputs states → ∀ time,
      let before := (states time).controller.toGlobalBrake
      let after := (states (time + 1)).controller.toGlobalBrake
      let full := fullWindow (states time) (inputs time)
      Agrees ceiling before ∧
      pacingInterval ceiling ≤ before.global.intervalNs ∧
      (full.globalWindow.attempted < 100 →
        after.globalLimit = before.globalLimit ∧ after.global = before.global) ∧
      (100 ≤ full.globalWindow.attempted → full.verdict.isCongested = true →
        effectiveLimit after ≤ effectiveLimit before) ∧
      (100 ≤ full.globalWindow.attempted → full.verdict.isCongested = false →
        1 / 2 < full.loss → effectiveLimit after ≤ effectiveLimit before) := by
  refine ⟨control_run_exists positive inputs, ?_⟩
  intro states run time before after full
  have agrees : Agrees ceiling before := (control_run_sound run time).1
  have stepped := Control.tick_global (run.ticks time)
  rcases adjust_global_agrees positive agrees (inputs time).outcomes (inputs time).seconds
    ((states time).tickTotals (inputs time)).attempted with ⟨same, adjusted, _, few, enough⟩
  rw [adjusted] at stepped
  cases stepped
  refine ⟨agrees, agrees_interval positive agrees, ?_, ?_, ?_⟩
  · intro short
    have unchanged : after = full := few short
    rw [unchanged]
    exact ⟨rfl, rfl⟩
  · intro long congested
    exact (enough long).congested congested
  · intro long quiet lossy
    apply (enough long).lossy quiet
    norm_num [maxBaselineLoss]
    exact lossy

theorem ceiling_is_hard_cap_below_one :
    ∃ states, ControlRun (1 / 2) lossyInputs states ∧
      ∀ time, Agrees (1 / 2) (states time).controller.toGlobalBrake := by
  have positive : (0 : ℚ) < 1 / 2 := by norm_num
  rcases ceiling_is_hard_cap positive lossyInputs with ⟨⟨states, run⟩, capped⟩
  exact ⟨states, run, fun time => (capped states run time).1⟩

end BlastDns.ControlRuns
