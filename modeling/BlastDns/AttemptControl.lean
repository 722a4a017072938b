import BlastDns.BrakeTick
import BlastDns.ControlRuns

/-!
The attempt brake inside the controller. A controller tick moves the global
rate first and raises the brake's settling flag if it did; then the brake ticks
on the pool's totals, or is switched off while too few resolvers respond.
-/

namespace BlastDns.AttemptControl

open Brake BrakeTick Controller ControlRuns LaneTick

variable {n : ℕ}

/-- The totals of the resolver loop as the brake is called with them. -/
def brakeInput (control : Control n) (input : TickInput n) : BrakeInput :=
  let totals := control.tickTotals input
  { seconds := input.seconds
    attempted := totals.attempted
    lost := totals.lost
    responded := totals.responded
    longestTimeout := totals.longestTimeout
    now := input.now
    waiting := input.waiting }

def moves (control : Control n) (input : TickInput n) : Bool :=
  match control.controller.toGlobalBrake.adjustGlobal input.outcomes input.seconds
    (control.tickTotals input).attempted with
  | some brake => brake.global.rate ≠ control.controller.global.rate
  | none => false

def flagged (control : Control n) (input : TickInput n) : AttemptBrake :=
  { control.controller.attempts with
    settling := moves control input || control.controller.attempts.settling }

def Engaged (control : Control n) (input : TickInput n) : Prop :=
  attemptMinResolvers ≤ (control.tickTotals input).responsive

instance (control : Control n) (input : TickInput n) : Decidable (Engaged control input) :=
  inferInstanceAs (Decidable (attemptMinResolvers ≤ (control.tickTotals input).responsive))

def attemptWindow (control : Control n) (input : TickInput n) : Option AttemptBrake :=
  if Engaged control input then closing (flagged control input) (brakeInput control input) else none

theorem tick_attempts {control after : Control n} {input : TickInput n}
    (ticked : control.tick input = some after) :
    after.controller.attempts =
      if Engaged control input then brakeStep (flagged control input) (brakeInput control input)
      else if control.controller.attempts.limit.isSome then
        (observed (flagged control input) (brakeInput control input)).setLimit none
      else observed (flagged control input) (brakeInput control input) := by
  rw [Control.tick] at ticked
  rcases Option.bind_eq_some_iff.mp ticked with ⟨⟨swept, totals⟩, loop, rest⟩
  rcases Option.bind_eq_some_iff.mp rest with ⟨global, adjusted, returned⟩
  rcases Control.loop_effect loop with ⟨counted, untouched⟩
  have kept : swept.controller.attempts = control.controller.attempts :=
    Sweep.sweep_view (fun state => state.controller.attempts) (fun _ _ _ => rfl)
      (List.finRange n) _ _ loop
  have paced : swept.controller.global = control.controller.global :=
    congrArg GlobalBrake.global untouched
  subst counted
  rw [untouched] at adjusted
  have moved : moves control input = decide (global.global.rate ≠ control.controller.global.rate) := by
    rw [moves, adjusted]
  cases returned
  simp only [kept, paced]
  rw [Control.tickAttempts, ← moved]
  rfl

theorem moves_iff {control after : Control n} {input : TickInput n}
    (ticked : control.tick input = some after) :
    moves control input = true ↔
      after.controller.global.rate ≠ control.controller.global.rate := by
  rw [moves, Control.tick_global ticked]
  simp

theorem tick_attempts_cases {control after : Control n} {input : TickInput n}
    (ticked : control.tick input = some after) :
    (Engaged control input ∧
      after.controller.attempts = brakeStep (flagged control input) (brakeInput control input)) ∨
    (¬ Engaged control input ∧ control.controller.attempts.limit.isSome ∧
      after.controller.attempts =
        (observed (flagged control input) (brakeInput control input)).setLimit none) ∨
    (¬ Engaged control input ∧ control.controller.attempts.limit = none ∧
      after.controller.attempts = observed (flagged control input) (brakeInput control input)) := by
  rw [tick_attempts ticked]
  by_cases engaged : Engaged control input
  · exact Or.inl ⟨engaged, if_pos engaged⟩
  · rw [if_neg engaged]
    cases standing : control.controller.attempts.limit with
    | none => exact Or.inr (Or.inr ⟨engaged, rfl, rfl⟩)
    | some limit => exact Or.inr (Or.inl ⟨engaged, rfl, rfl⟩)

theorem new_attempts {ceiling : ℚ} {start : Control n}
    (fresh : Control.new n ceiling = some start) : start.controller.attempts = newBrake := by
  rw [Control.new] at fresh
  rcases Option.bind_eq_some_iff.mp fresh with ⟨global, _, rest⟩
  rcases Option.bind_eq_some_iff.mp rest with ⟨limiter, _, returned⟩
  cases returned
  rfl

def controlStates (ceiling : ℚ) (inputs : ℕ → TickInput n) : ℕ → Option (Control n)
  | 0 => Control.new n ceiling
  | time + 1 => (controlStates ceiling inputs time).bind fun control => control.tick (inputs time)

theorem control_run_states {ceiling : ℚ} {inputs : ℕ → TickInput n} {states : ℕ → Control n}
    (run : ControlRun ceiling inputs states) (time : ℕ) :
    controlStates ceiling inputs time = some (states time) := by
  induction time with
  | zero => exact run.fresh
  | succ time ih => rw [controlStates, ih, Option.bind_some, run.ticks time]

/-- Ten seconds of a pool of eight resolvers with these counters each. -/
def poolInput (time attempted answered : ℕ) (outcomes : Outcomes) : TickInput 8 where
  elapsedNs := 10 ^ 10
  now := (time + 1) * 10 ^ 10
  resolvers _ :=
    { resolver := .v4 ⟨127, 0, 0, 1⟩ 53
      requestTimeoutNs := 10 ^ 9
      purgatoryThreshold := 0
      purgatorySentenceNs := 0
      inflight := 1
      limiter := ⟨1⟩
      attempted := attempted
      answered := answered
      timeout := attempted - answered }
  outcomes := outcomes
  waiting := 0

end BlastDns.AttemptControl
