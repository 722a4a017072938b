import BlastDns.WindowAccounts

/-!
The brakes do not see one another's signals. Two runs of the controller over
pools of the same size are compared: a resolver whose own counters agree in
both has the same lane in both, and the global rate is the same wherever the
finished queries and the number of attempts are, however they were lost or
answered.
-/

namespace BlastDns.Independence

open Limiter Health LaneTick Controller GlobalCeiling ControlRuns WindowAccounts

variable {n : ℕ} {ceiling ceiling' : ℚ}
variable {inputs inputs' : ℕ → TickInput n} {states states' : ℕ → Control n}

structure SameTick (input input' : TickInput n) : Prop where
  elapsedNs : input.elapsedNs = input'.elapsedNs
  now : input.now = input'.now

/-- Resolver i shows the controller the same counters and the same timeout. -/
structure SameResolver (i : Fin n) (input input' : TickInput n) : Prop where
  attempted : (input.resolvers i).attempted = (input'.resolvers i).attempted
  timeout : (input.resolvers i).timeout = (input'.resolvers i).timeout
  error : (input.resolvers i).error = (input'.resolvers i).error
  answered : (input.resolvers i).answered = (input'.resolvers i).answered
  empty : (input.resolvers i).empty = (input'.resolvers i).empty
  requestTimeoutNs :
    (input.resolvers i).requestTimeoutNs = (input'.resolvers i).requestTimeoutNs

def attemptsIn (inputs : ℕ → TickInput n) : ℕ → ℕ
  | 0 => ∑ i, ((inputs 0).resolvers i).attempted
  | time + 1 =>
      ∑ i, (((inputs (time + 1)).resolvers i).attempted - ((inputs time).resolvers i).attempted)

theorem same_seconds {input input' : TickInput n} (tick : SameTick input input') :
    input.seconds = input'.seconds := by
  rw [TickInput.seconds, TickInput.seconds, tick.elapsedNs]

theorem same_observation {i : Fin n} {input input' : TickInput n}
    (same : SameResolver i input input') :
    observe (input.resolvers i) = observe (input'.resolvers i) := by
  simp only [observe, same.attempted, same.timeout, same.error, same.answered, same.empty]

/-- One step: equal lanes, shown the same, stay equal. -/
theorem tick_lane_agrees {control control' after after' : Control n} {input input' : TickInput n}
    {i : Fin n} (ticked : control.tick input = some after)
    (ticked' : control'.tick input' = some after') (tick : SameTick input input')
    (same : SameResolver i input input') (agree : control.lane i = control'.lane i) :
    after.lane i = after'.lane i := by
  have stepped := Control.tick_lane ticked i
  have stepped' := Control.tick_lane ticked' i
  rw [Control.resolverBody, agree, same_observation same, same.requestTimeoutNs,
    same_seconds tick, tick.now] at stepped
  rw [Control.resolverBody, stepped] at stepped'
  exact Option.some.inj stepped'

theorem lane_agrees (run : ControlRun ceiling inputs states)
    (run' : ControlRun ceiling' inputs' states') (i : Fin n) (time : ℕ)
    (ticks : ∀ step < time, SameTick (inputs step) (inputs' step))
    (same : ∀ step < time, SameResolver i (inputs step) (inputs' step)) :
    (states time).lane i = (states' time).lane i := by
  induction time with
  | zero => rw [(Control.new_some run.fresh).2.2 i, (Control.new_some run'.fresh).2.2 i]
  | succ time ih =>
      have agree := ih (fun step before => ticks step (Nat.lt_succ_of_lt before))
        (fun step before => same step (Nat.lt_succ_of_lt before))
      exact tick_lane_agrees (run.ticks time) (run'.ticks time) (ticks time (Nat.lt_succ_self time))
        (same time (Nat.lt_succ_self time)) agree

theorem tick_counts_attempts (run : ControlRun ceiling inputs states) (time : ℕ) :
    ((states time).tickTotals (inputs time)).attempted = attemptsIn inputs time := by
  rw [tick_attempts]
  cases time with
  | zero =>
      simp only [(run_snapshot run _).1]
      rfl
  | succ time =>
      simp only [(run_snapshot run _).2]
      rfl

theorem tick_global_agrees {control control' after after' : Control n}
    {input input' : TickInput n} (ticked : control.tick input = some after)
    (ticked' : control'.tick input' = some after') (tick : SameTick input input')
    (outcomes : input.outcomes = input'.outcomes)
    (attempts : (control.tickTotals input).attempted = (control'.tickTotals input').attempted)
    (agree : control.controller.toGlobalBrake = control'.controller.toGlobalBrake) :
    after.controller.toGlobalBrake = after'.controller.toGlobalBrake := by
  have adjusted := Control.tick_global ticked
  have adjusted' := Control.tick_global ticked'
  rw [agree, outcomes, attempts, same_seconds tick, adjusted'] at adjusted
  exact (Option.some.inj adjusted).symm

theorem global_agrees (run : ControlRun ceiling inputs states)
    (run' : ControlRun ceiling inputs' states') (time : ℕ)
    (ticks : ∀ step < time, SameTick (inputs step) (inputs' step))
    (outcomes : ∀ step < time, (inputs step).outcomes = (inputs' step).outcomes)
    (attempts : ∀ step < time, attemptsIn inputs step = attemptsIn inputs' step) :
    (states time).controller.toGlobalBrake = (states' time).controller.toGlobalBrake := by
  induction time with
  | zero => rw [(Control.new_some run.fresh).2.1, (Control.new_some run'.fresh).2.1]
  | succ time ih =>
      have last := Nat.lt_succ_self time
      have agree := ih (fun step before => ticks step (Nat.lt_succ_of_lt before))
        (fun step before => outcomes step (Nat.lt_succ_of_lt before))
        (fun step before => attempts step (Nat.lt_succ_of_lt before))
      apply tick_global_agrees (run.ticks time) (run'.ticks time) (ticks time last)
        (outcomes time last) _ agree
      rw [tick_counts_attempts run, tick_counts_attempts run']
      exact attempts time last

/-- In two runs with the same tick times, whatever the other resolvers, the
ceiling and the outcomes do, a resolver that counted the same keeps the same
lane; and whatever the resolvers lost or answered, the global brake follows the
outcomes, the ceiling and the number of attempts alone. -/
theorem brakes_independent (run : ControlRun ceiling inputs states)
    (run' : ControlRun ceiling' inputs' states') (time : ℕ)
    (ticks : ∀ step < time, SameTick (inputs step) (inputs' step)) :
    (∀ i, (∀ step < time, SameResolver i (inputs step) (inputs' step)) →
      (states time).controller.edges i = (states' time).controller.edges i ∧
      (states time).controller.stepped i = (states' time).controller.stepped i ∧
      (states time).controller.undo i = (states' time).controller.undo i ∧
      (states time).controller.judge i = (states' time).controller.judge i ∧
      (states time).controller.window i = (states' time).controller.window i ∧
      (states time).controller.windowSeconds i = (states' time).controller.windowSeconds i ∧
      (states time).limiters i = (states' time).limiters i) ∧
    (ceiling = ceiling' → (∀ step < time, (inputs step).outcomes = (inputs' step).outcomes) →
      (∀ step < time, attemptsIn inputs step = attemptsIn inputs' step) →
      (states time).controller.globalLimit = (states' time).controller.globalLimit ∧
      (states time).controller.globalJudge = (states' time).controller.globalJudge ∧
      (states time).controller.global = (states' time).controller.global) := by
  constructor
  · intro i same
    have agree := lane_agrees run run' i time ticks same
    exact ⟨congrArg Lane.edge agree, congrArg Lane.stepped agree, congrArg Lane.undo agree,
      congrArg Lane.judge agree, congrArg Lane.window agree, congrArg Lane.windowSeconds agree,
      congrArg Lane.limiter agree⟩
  · rintro rfl outcomes attempts
    have agree := global_agrees run run' time ticks outcomes attempts
    exact ⟨congrArg GlobalBrake.globalLimit agree, congrArg GlobalBrake.globalJudge agree,
      congrArg GlobalBrake.global agree⟩

/-- Two resolvers; the second loses `lost` of the hundred attempts of each tick. -/
def pairInputs (lost time : ℕ) : TickInput 2 where
  elapsedNs := 5 * 10 ^ 9
  now := time * (5 * 10 ^ 9)
  resolvers i :=
    { resolver := .v4 ⟨127, 0, 0, 1⟩ 53
      requestTimeoutNs := 10 ^ 9
      purgatoryThreshold := 0
      purgatorySentenceNs := 0
      inflight := 1
      limiter := ⟨1⟩
      attempted := 100 * time
      timeout := if i = 0 then 0 else lost * time
      answered := if i = 0 then 100 * time else (100 - lost) * time }
  outcomes := { completed := 200 * time }
  waiting := 0

theorem brakes_independent_pair :
    ∃ healthy lossy, ControlRun 1000 (pairInputs 0) healthy ∧ ControlRun 1000 (pairInputs 60) lossy ∧
      ∀ time, (healthy time).limiters 0 = (lossy time).limiters 0 ∧
        (healthy time).controller.global = (lossy time).controller.global := by
  have positive : (0 : ℚ) < 1000 := by norm_num
  rcases control_run_exists positive (pairInputs 0) with ⟨healthy, run⟩
  rcases control_run_exists positive (pairInputs 60) with ⟨lossy, run'⟩
  refine ⟨healthy, lossy, run, run', ?_⟩
  intro time
  have ticks : ∀ step < time, SameTick (pairInputs 0 step) (pairInputs 60 step) :=
    fun _ _ => ⟨rfl, rfl⟩
  have attempts : ∀ step, attemptsIn (pairInputs 0) step = attemptsIn (pairInputs 60) step := by
    intro step
    cases step <;> rfl
  rcases brakes_independent run run' time ticks with ⟨resolvers, global⟩
  exact ⟨(resolvers 0 fun _ _ => ⟨rfl, rfl, rfl, rfl, rfl, rfl⟩).2.2.2.2.2.2,
    (global rfl (fun _ _ => rfl) fun step _ => attempts step).2.2⟩

end BlastDns.Independence
