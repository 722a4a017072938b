import BlastDns.AttemptControl
import BlastDns.NoRatchet

/-!
The settling flag. A tick that changes the sending rate raises it, and the next
window to close consumes it and is discarded. The flag is one for two brakes:
where the rate changes before the close of a window in one and the same tick,
that window consumes the flag, and the window that follows the change is
measured. Apart from such ticks every change is followed by a discarded window.
-/

namespace BlastDns.Settling

open Brake BrakeTick Controller ControlRuns LaneTick AttemptControl Runs

section Steps

variable {brake : AttemptBrake} {input : BrakeInput}

theorem idle_settling (raised : brake.settling = true ∨ brake.idle.limit ≠ brake.limit) :
    brake.idle.settling = true := by
  rw [AttemptBrake.idle] at raised ⊢
  cases running : brake.probe with
  | some probe => rfl
  | none =>
      rw [running] at raised
      rcases raised with flag | moved
      · exact flag
      · exact absurd rfl moved

theorem opened_settling (raised : brake.settling = true ∨ (opened brake input).limit ≠ brake.limit) :
    (opened brake input).settling = true := by
  by_cases reset : Resets brake input
  · exact (opened_reset brake input reset).2.2.2
  · rcases opened_kept brake input reset with ⟨same, _, _, _, flag⟩
    rcases raised with settles | moved
    · exact flag.mpr (Or.inl settles)
    · exact absurd same moved

/-- Every limit a closed window sets leaves the flag raised. -/
theorem close_settling {full : AttemptBrake} {now : ℕ}
    (moved : (full.closeWindow now).limit ≠ full.limit) :
    (full.closeWindow now).settling = true := by
  rcases close_window_sets full now with ⟨base, closed, same | ⟨limit, same⟩⟩ <;>
    rw [same] at moved ⊢
  · exact absurd closed.limit moved
  · rfl

end Steps

section Ticks

variable {n : ℕ} {control after : Control n} {input : TickInput n}

/-- The rate changes before the close of a window in the same tick: the global
brake moves it, or a long idle lifts the limit. -/
def Collides (control : Control n) (input : TickInput n) : Prop :=
  (attemptWindow control input).isSome ∧
    (moves control input = true ∨
      control.controller.attempts.limit.isSome ∧
        Resets control.controller.attempts (brakeInput control input))

/-- Apart from a collision the limit a window closes under is the one before it. -/
theorem apart_limit (apart : ¬ Collides control input)
    (window : (attemptWindow control input).isSome) :
    (opened (flagged control input) (brakeInput control input)).limit =
      control.controller.attempts.limit := by
  by_cases reset : Resets (flagged control input) (brakeInput control input)
  · rw [(opened_reset _ _ reset).1]
    cases standing : control.controller.attempts.limit with
    | none => rfl
    | some limit => exact absurd ⟨window, Or.inr ⟨by simp [standing], reset⟩⟩ apart
  · exact (opened_kept _ _ reset).1

def Changed (before after : Control n) : Prop :=
  after.controller.global.rate ≠ before.controller.global.rate ∨
    after.controller.attempts.limit ≠ before.controller.attempts.limit

theorem changed_settles (ticked : control.tick input = some after)
    (apart : ¬ Collides control input) (changed : Changed control after) :
    after.controller.attempts.settling = true := by
  have raised : (flagged control input).settling = true ∨
      after.controller.attempts.limit ≠ control.controller.attempts.limit := by
    rcases changed with moved | limit
    · left
      simp [flagged, (moves_iff ticked).mpr moved]
    · exact Or.inr limit
  rcases tick_attempts_cases ticked with ⟨engaged, same⟩ | ⟨_, _, same⟩ | ⟨_, _, same⟩
  · rcases brake_step_cases (flagged control input) (brakeInput control input) with
      ⟨_, _, step⟩ | ⟨_, _, step⟩ | ⟨full, closes, step⟩ <;> rw [same, step] at raised ⊢
    · exact idle_settling raised
    · exact opened_settling raised
    · -- the change came with the close itself
      have window : (attemptWindow control input).isSome := by
        simp [attemptWindow, engaged, closes]
      rcases closing_some closes with ⟨rfl, _⟩
      apply close_settling
      rcases changed with moved | limit
      · exact absurd ⟨window, Or.inl ((moves_iff ticked).mpr moved)⟩ apart
      · rw [same, step] at limit
        rw [apart_limit apart window]
        exact limit
  · rw [same]
    rfl
  · rw [same] at raised ⊢
    rcases raised with flag | limit
    · exact flag
    · exact absurd rfl limit

theorem settling_stays (ticked : control.tick input = some after)
    (settles : control.controller.attempts.settling = true)
    (open_ : attemptWindow control input = none) : after.controller.attempts.settling = true := by
  have raised : (flagged control input).settling = true := by simp [flagged, settles]
  rcases tick_attempts_cases ticked with ⟨engaged, same⟩ | ⟨_, _, same⟩ | ⟨_, _, same⟩
  · rw [attemptWindow, if_pos engaged] at open_
    rcases brake_step_cases (flagged control input) (brakeInput control input) with
      ⟨_, _, step⟩ | ⟨_, _, step⟩ | ⟨full, closes, _⟩
    · rw [same, step]
      exact idle_settling (Or.inl raised)
    · rw [same, step]
      exact opened_settling (Or.inl raised)
    · rw [closes] at open_
      cases open_
  · rw [same]
    rfl
  · rw [same]
    exact raised

theorem settling_discards (ticked : control.tick input = some after)
    (apart : ¬ Collides control input) (settles : control.controller.attempts.settling = true)
    (window : (attemptWindow control input).isSome) :
    after.controller.attempts.history.Sublist control.controller.attempts.history ∧
      after.controller.attempts.probe = control.controller.attempts.probe ∧
      after.controller.attempts.limit = control.controller.attempts.limit := by
  have raised : (flagged control input).settling = true := by simp [flagged, settles]
  have limit := apart_limit apart window
  rcases Option.isSome_iff_exists.mp window with ⟨full, closes⟩
  rw [attemptWindow] at closes
  split at closes
  · rename_i engaged
    have same := tick_attempts ticked
    rw [if_pos engaged] at same
    rcases brake_step_cases (flagged control input) (brakeInput control input) with
      ⟨_, none, _⟩ | ⟨_, none, _⟩ | ⟨full, closes, step⟩
    · rw [none] at closes
      cases closes
    · rw [none] at closes
      cases closes
    · rcases closing_some closes with ⟨rfl, _⟩
      have history := opened_history (flagged control input) (brakeInput control input)
      have probe := opened_probe (flagged control input) (brakeInput control input)
      have discarded := @opened_settling _ (brakeInput control input) (Or.inl raised)
      rcases close_window_cases (opened (flagged control input) (brakeInput control input))
        (brakeInput control input).now with ⟨_, outcome⟩ | ⟨settled, _⟩
      · rw [same, step, outcome]
        exact ⟨history, probe, limit⟩
      · rw [discarded] at settled
        cases settled
  · cases closes

end Ticks

section Runs

variable {n : ℕ} {ceiling : ℚ} {inputs : ℕ → TickInput n} {states : ℕ → Control n}

/-- In every run without a collision, the first window that closes after a tick
that changed the sending rate adds no sample, counts for no probe and moves no
limit. -/
theorem rate_change_not_measured (run : ControlRun ceiling inputs states)
    (apart : ∀ time, ¬ Collides (states time) (inputs time)) {time : ℕ}
    (changed : Changed (states time) (states (time + 1))) {later : ℕ} (order : time < later)
    (closes : (attemptWindow (states later) (inputs later)).isSome)
    (first : ∀ between, time < between → between < later →
      attemptWindow (states between) (inputs between) = none) :
    (states (later + 1)).controller.attempts.history.Sublist
        (states later).controller.attempts.history ∧
      (states (later + 1)).controller.attempts.probe =
        (states later).controller.attempts.probe ∧
      (states (later + 1)).controller.attempts.limit =
        (states later).controller.attempts.limit := by
  have settles : (states later).controller.attempts.settling = true := by
    apply run_persists (fun control : Control n => control.controller.attempts.settling = true)
      (fun control input => attemptWindow control input = none) _ run.ticks (time + 1) _ later order
    · exact first
    · intro before input after settles open_ ticked
      exact settling_stays ticked settles open_
    · exact changed_settles (run.ticks time) (apart time) changed
  exact settling_discards (run.ticks later) (apart later) settles closes

theorem still_no_window (run : ControlRun ceiling inputs states) {time : ℕ}
    (still : ∀ i, (observe ((inputs (time + 1)).resolvers i)).attempted ≤
      (observe ((inputs time).resolvers i)).attempted) :
    attemptWindow (states (time + 1)) (inputs (time + 1)) = none := by
  have none_sent : ∀ (order : List (Fin n)) (totals : Control.Totals),
      (order.foldl (fun totals i => Control.resolverCount (inputs (time + 1)) i
        ((states (time + 1)).lane i) totals) totals).attempted = totals.attempted := by
    intro order
    induction order with
    | nil => exact fun _ => rfl
    | cons i rest ih =>
        intro totals
        have snapshot := (NoRatchet.tick_window ((control_run_sound run time).2 i)
          (Control.tick_lane (run.ticks time) i)).1
        have least := still i
        rw [List.foldl_cons, ih, Control.resolverCount, Control.Totals.add, snapshot]
        dsimp only
        omega
  have idles : Idles (brakeInput (states (time + 1)) (inputs (time + 1))) := by
    have positive : 0 < (inputs (time + 1)).seconds := by
      apply lt_of_lt_of_le _ (le_max_right _ _)
      norm_num [minSeconds]
    have sent : (brakeInput (states (time + 1)) (inputs (time + 1))).attempted = 0 :=
      none_sent (List.finRange n) {}
    rw [Idles, sent, attemptIdleQps, Nat.cast_zero]
    exact mul_pos (by norm_num) positive
  rw [attemptWindow, closing, if_pos idles, ite_self]

/-- A hundred answers at each of eight resolvers, then twenty a tick until a window
has been filled, half of all attempts lost. The global rate moves while that window
is open. -/
def sparedAnswers (time : ℕ) : ℕ := min (100 + 20 * time) 140

def sparedInputs (time : ℕ) : TickInput 8 :=
  poolInput time (2 * sparedAnswers time) (sparedAnswers time)
    (if time = 0 then {} else { completed := 200, failed := 100 })

theorem rate_change_not_measured_spared :
    ∃ states, ControlRun 1000 sparedInputs states ∧ Changed (states 1) (states 2) ∧
      (attemptWindow (states 2) (sparedInputs 2)).isSome ∧
      (states 3).controller.attempts.history.Sublist (states 2).controller.attempts.history := by
  have positive : (0 : ℚ) < 1000 := by norm_num
  rcases control_run_exists positive sparedInputs with ⟨states, run⟩
  have computed : (List.range 3).map (fun time => (controlStates 1000 sparedInputs time).map fun
      control => (control.controller.global.rate, control.controller.attempts.limit,
        moves control (sparedInputs time), (attemptWindow control (sparedInputs time)).isSome)) =
      [some (1000, none, false, true), some (1000, none, true, false),
        some (500000000 / 6127451, none, false, true)] := by decide +kernel
  simp only [List.range, List.range.loop, List.map_cons, List.map_nil, control_run_states run,
    Option.map_some, List.cons.injEq, Option.some.injEq, Prod.mk.injEq] at computed
  rcases computed with ⟨⟨_, first, calm, _⟩, ⟨slower, _, _, open_⟩, ⟨rate, third, quiet, closes⟩, _⟩
  have apart : ∀ time, ¬ Collides (states time) (sparedInputs time) := by
    rintro time ⟨window, cause⟩
    rcases time with _ | _ | _ | later
    · simp [calm, first] at cause
    · simp [open_] at window
    · simp [quiet, third] at cause
    · have still : sparedAnswers (later + 3) ≤ sparedAnswers (later + 2) := by
        simp only [sparedAnswers]
        omega
      have shut : attemptWindow (states (later + 2 + 1)) (sparedInputs (later + 2 + 1)) = none :=
        still_no_window run fun _ => Nat.mul_le_mul_left 2 still
      rw [shut] at window
      cases window
  have changed : Changed (states 1) (states 2) := by
    left
    rw [rate, slower]
    norm_num
  have measured := rate_change_not_measured run apart changed (Nat.lt_succ_self 1) closes
    fun between lower upper => absurd lower (by omega)
  exact ⟨states, run, changed, closes, measured.1⟩

/-- Two hundred attempts a tick at each of eight resolvers, half of them lost: every
tick closes an attempt window. The global rate moves in the second. -/
def collidingInputs (time : ℕ) : TickInput 8 :=
  poolInput time (200 * (time + 1)) (100 * (time + 1))
    (if time = 0 then {} else { completed := 200, failed := 100 })

theorem rate_change_measured :
    ∃ states, ControlRun 1000 collidingInputs states ∧ Changed (states 1) (states 2) ∧
      (attemptWindow (states 2) (collidingInputs 2)).isSome ∧
      (states 2).controller.attempts.history = [] ∧
      (states 3).controller.attempts.history.length = 1 ∧
      (states 3).controller.attempts.limit ≠ (states 2).controller.attempts.limit := by
  have positive : (0 : ℚ) < 1000 := by norm_num
  rcases control_run_exists positive collidingInputs with ⟨states, run⟩
  have computed : (List.range 4).map (fun time => (controlStates 1000 collidingInputs time).map fun
      control => (control.controller.global.rate, control.controller.attempts.limit,
        control.controller.attempts.history.length,
        (attemptWindow control (collidingInputs time)).isSome)) =
      [some (1000, none, 0, true), some (1000, none, 0, true),
        some (1000000000 / 7352941, none, 0, true),
        some (1000000000 / 7352941, some 80, 1, true)] := by decide +kernel
  simp only [List.range, List.range.loop, List.map_cons, List.map_nil, control_run_states run,
    Option.map_some, List.cons.injEq, Option.some.injEq, Prod.mk.injEq] at computed
  rcases computed with ⟨_, ⟨before, _⟩, ⟨rate, free, empty, closes⟩, ⟨_, limited, grown, _⟩, _⟩
  refine ⟨states, run, ?_, closes, List.length_eq_zero_iff.mp empty, grown, ?_⟩
  · left
    rw [rate, before]
    norm_num
  · rw [free, limited]
    simp

end Runs

end BlastDns.Settling
