import BlastDns.LaneTick
import BlastDns.Runs
import BlastDns.Sweep
import Mathlib.Data.List.FinRange

/-!
`AdaptiveController` of `src/controller.rs`: the per-resolver loop, the global
rate and the attempt brake, in the order one tick runs them. The controller
keeps parallel vectors indexed by resolver. Between ticks the environment may
change every counter of the pool, but only the controller sets a rate.
-/

namespace BlastDns.Controller

open Limiter Judge Brake Health LaneTick

def minAggregateSamples : ℕ := 100
def maxBaselineLoss : ℚ := 5 / 10

/-- `Outcomes`: queries that finished, and those that finished with nothing. -/
structure Outcomes where
  completed : ℕ := 0
  failed : ℕ := 0
  deriving DecidableEq

/-- The controller's fields that `adjust_global` reads and writes. -/
structure GlobalBrake where
  global : RateLimiter
  globalCeiling : ℚ
  previousOutcomes : Observation := {}
  globalWindow : Observation := {}
  globalWindowDispatched : ℕ := 0
  globalWindowSeconds : ℚ := 0
  globalJudge : LossJudge := {}
  globalLimit : Option ℚ := none
  deriving DecidableEq

namespace GlobalBrake

def setRate (brake : GlobalBrake) (queriesPerSecond : ℚ) : Option GlobalBrake :=
  (brake.global.setRate queriesPerSecond).map fun global => { brake with global := global }

def accumulate (brake : GlobalBrake) (outcomes : Outcomes) (seconds : ℚ) (attempted : ℕ) :
    GlobalBrake :=
  { brake with
    previousOutcomes := { attempted := outcomes.completed, lost := outcomes.failed }
    globalWindow := { brake.globalWindow with
      attempted := brake.globalWindow.attempted +
        (outcomes.completed - brake.previousOutcomes.attempted)
      lost := brake.globalWindow.lost + (outcomes.failed - brake.previousOutcomes.lost) }
    globalWindowDispatched := brake.globalWindowDispatched + attempted
    globalWindowSeconds := brake.globalWindowSeconds + seconds }

def resetWindow (brake : GlobalBrake) : GlobalBrake :=
  { brake with globalWindow := {}, globalWindowDispatched := 0, globalWindowSeconds := 0 }

def loss (brake : GlobalBrake) : ℚ := brake.globalWindow.lost / brake.globalWindow.attempted

def delivered (brake : GlobalBrake) : ℚ :=
  ((brake.globalWindow.attempted - brake.globalWindow.lost : ℕ) : ℚ) /
    max brake.globalWindowSeconds minSeconds

def dispatchRate (brake : GlobalBrake) : ℚ :=
  brake.globalWindowDispatched / max brake.globalWindowSeconds minSeconds

/-- Retreat from the standing limit; only the first retreat starts from observed
throughput. -/
def retreatFrom (brake : GlobalBrake) (dispatchRate : ℚ) : Option GlobalBrake :=
  let basis := brake.globalLimit.getD dispatchRate
  let target := min (max (basis * retreat) minRateQps) brake.globalCeiling
  { brake with globalLimit := some target }.setRate target

def ease (brake : GlobalBrake) : Option GlobalBrake :=
  match brake.globalLimit with
  | none => some brake
  | some limit =>
      let grown := limit * growth
      if brake.globalCeiling ≤ grown then
        { brake with globalLimit := none }.setRate brake.globalCeiling
      else { brake with globalLimit := some grown }.setRate grown

/-- What a full window does: judge it, then retreat, hold or ease. -/
def judgeWindow (brake : GlobalBrake) : Option GlobalBrake :=
  let verdict := brake.globalJudge.judge brake.loss brake.delivered
  let judged := { brake.resetWindow with globalJudge := verdict.2 }
  match verdict.1 with
  | .congested _ => judged.retreatFrom brake.dispatchRate
  | .clear | .baseline => if maxBaselineLoss < brake.loss then some judged else judged.ease

def adjustGlobal (brake : GlobalBrake) (outcomes : Outcomes) (seconds : ℚ) (attempted : ℕ) :
    Option GlobalBrake :=
  let brake := brake.accumulate outcomes seconds attempted
  if brake.globalWindow.attempted < minAggregateSamples then some brake else brake.judgeWindow

def verdict (full : GlobalBrake) : Verdict := (full.globalJudge.judge full.loss full.delivered).1

end GlobalBrake

structure AdaptiveController (n : ℕ) extends GlobalBrake where
  perResolver : Fin n → Observation
  edges : Fin n → Option Edge
  stepped : Fin n → Bool
  undo : Fin n → Option (Option Edge × ℚ)
  judge : Fin n → LossJudge
  window : Fin n → Observation
  windowSeconds : Fin n → ℚ
  attempts : AttemptBrake

structure Control (n : ℕ) where
  controller : AdaptiveController n
  limiters : Fin n → RateLimiter

/-- What a tick finds: the time, the pool's counters, finished queries, and the
callers waiting on the attempt pacer. The pool's limiters are `Control.limiters`. -/
structure TickInput (n : ℕ) where
  elapsedNs : ℕ
  now : ℕ
  resolvers : Fin n → ResolverHealth
  outcomes : Outcomes
  waiting : ℕ

def TickInput.seconds {n : ℕ} (input : TickInput n) : ℚ := max (asSecs input.elapsedNs) minSeconds

/-- `AdaptiveController::new` over fresh limiters; `none` when the ceiling is not
positive. -/
def Control.new (n : ℕ) (ceiling : ℚ) : Option (Control n) := do
  let global ← RateLimiter.new ceiling
  let limiter ← RateLimiter.new unlimitedQps
  return {
    controller := {
      global := global
      globalCeiling := ceiling
      perResolver := fun _ => {}
      edges := fun _ => none
      stepped := fun _ => false
      undo := fun _ => none
      judge := fun _ => {}
      window := fun _ => {}
      windowSeconds := fun _ => 0
      attempts := { pacer := {} } }
    limiters := fun _ => limiter }

namespace Control

variable {n : ℕ}

def lane (control : Control n) (i : Fin n) : Lane where
  perResolver := control.controller.perResolver i
  edge := control.controller.edges i
  stepped := control.controller.stepped i
  undo := control.controller.undo i
  judge := control.controller.judge i
  window := control.controller.window i
  windowSeconds := control.controller.windowSeconds i
  limiter := control.limiters i

def setLane (control : Control n) (i : Fin n) (lane : Lane) : Control n where
  controller := { control.controller with
    perResolver := Function.update control.controller.perResolver i lane.perResolver
    edges := Function.update control.controller.edges i lane.edge
    stepped := Function.update control.controller.stepped i lane.stepped
    undo := Function.update control.controller.undo i lane.undo
    judge := Function.update control.controller.judge i lane.judge
    window := Function.update control.controller.window i lane.window
    windowSeconds := Function.update control.controller.windowSeconds i lane.windowSeconds }
  limiters := Function.update control.limiters i lane.limiter

def lanes (n : ℕ) : Sweep.Lanes (Control n) (Fin n) Lane where
  get := lane
  set := setLane
  get_set_same control i lane := by simp [Control.lane, setLane]
  get_set_other control i other lane different := by simp [Control.lane, setLane, different]

structure Totals where
  attempted : ℕ := 0
  lost : ℕ := 0
  responded : ℕ := 0
  longestTimeout : ℚ := 0
  responsive : ℕ := 0

def Totals.add (totals : Totals) (previous current : Observation) (timeout : ℚ) : Totals where
  attempted := totals.attempted + (current.attempted - previous.attempted)
  lost := if 0 < current.responded then totals.lost + (current.lost - previous.lost) else totals.lost
  responded :=
    if 0 < current.responded then totals.responded + (current.responded - previous.responded)
    else totals.responded
  longestTimeout := max totals.longestTimeout timeout
  responsive := if 0 < current.responded then totals.responsive + 1 else totals.responsive

def resolverBody (input : TickInput n) (i : Fin n) (lane : Lane) : Option Lane :=
  lane.tick (observe (input.resolvers i)) (asSecs (input.resolvers i).requestTimeoutNs)
    input.seconds input.now

def resolverCount (input : TickInput n) (i : Fin n) (lane : Lane) (totals : Totals) : Totals :=
  totals.add lane.perResolver (observe (input.resolvers i))
    (asSecs (input.resolvers i).requestTimeoutNs)

def tickResolvers (control : Control n) (input : TickInput n) : Option (Control n × Totals) :=
  Sweep.sweep (lanes n) (resolverBody input) (resolverCount input) (List.finRange n) (control, {})

def tickAttempts (attempts : AttemptBrake) (moved : Bool) (totals : Totals) (input : TickInput n) :
    AttemptBrake :=
  let attempts := { attempts with
    pacer := { attempts.pacer with waiting := input.waiting }
    settling := moved || attempts.settling }
  if attemptMinResolvers ≤ totals.responsive then
    attempts.tick input.seconds totals.attempted totals.lost totals.responded
      totals.longestTimeout input.now
  else if attempts.limit.isSome then attempts.setLimit none
  else attempts

def tick (control : Control n) (input : TickInput n) : Option (Control n) := do
  let (control, totals) ← control.tickResolvers input
  -- the attempt brake settles anew when the other brake has moved the rate
  let globalRate := control.controller.global.rate
  let brake ← control.controller.toGlobalBrake.adjustGlobal input.outcomes input.seconds
    totals.attempted
  let moved := brake.global.rate ≠ globalRate
  return { control with
    controller := { control.controller with
      toGlobalBrake := brake
      attempts := tickAttempts control.controller.attempts moved totals input } }

def tickTotals (control : Control n) (input : TickInput n) : Totals :=
  (List.finRange n).foldl (fun totals i => resolverCount input i (control.lane i) totals) {}

theorem loop_effect {control swept : Control n} {input : TickInput n} {totals : Totals}
    (loop : control.tickResolvers input = some (swept, totals)) :
    totals = control.tickTotals input ∧
      swept.controller.toGlobalBrake = control.controller.toGlobalBrake := by
  constructor
  · exact Sweep.sweep_total (List.finRange n) _ _ (List.nodup_finRange n) loop
  · exact Sweep.sweep_view (fun state => state.controller.toGlobalBrake) (fun _ _ _ => rfl)
      (List.finRange n) _ _ loop

theorem tick_some {control after : Control n} {input : TickInput n}
    (ticked : control.tick input = some after) :
    ∃ swept brake, control.tickResolvers input = some (swept, control.tickTotals input) ∧
      control.controller.toGlobalBrake.adjustGlobal input.outcomes input.seconds
        (control.tickTotals input).attempted = some brake ∧
      after.controller.toGlobalBrake = brake ∧ ∀ i, after.lane i = swept.lane i := by
  rw [tick] at ticked
  rcases Option.bind_eq_some_iff.mp ticked with ⟨⟨swept, totals⟩, loop, rest⟩
  rcases Option.bind_eq_some_iff.mp rest with ⟨brake, adjusted, returned⟩
  rcases loop_effect loop with ⟨counted, untouched⟩
  subst counted
  rw [untouched] at adjusted
  cases returned
  exact ⟨swept, brake, loop, adjusted, rfl, fun _ => rfl⟩

/-- A tick is one step of each lane, whatever the others do. -/
theorem tick_lane {control after : Control n} {input : TickInput n}
    (ticked : control.tick input = some after) (i : Fin n) :
    resolverBody input i (control.lane i) = some (after.lane i) := by
  rcases tick_some ticked with ⟨swept, _, loop, _, _, same⟩
  rw [same i]
  exact Sweep.sweep_lane (List.finRange n) _ _ i (List.nodup_finRange n)
    (List.mem_finRange i) loop

theorem tick_global {control after : Control n} {input : TickInput n}
    (ticked : control.tick input = some after) :
    control.controller.toGlobalBrake.adjustGlobal input.outcomes input.seconds
      (control.tickTotals input).attempted = some after.controller.toGlobalBrake := by
  rcases tick_some ticked with ⟨_, brake, _, adjusted, same, _⟩
  rw [same]
  exact adjusted

/-- The tick panics only where a lane or the global rate would. -/
theorem tick_exists (control : Control n) (input : TickInput n)
    (steps : ∀ i, ∃ lane, resolverBody input i (control.lane i) = some lane)
    (adjusts : ∃ brake, control.controller.toGlobalBrake.adjustGlobal input.outcomes
      input.seconds (control.tickTotals input).attempted = some brake) :
    ∃ after, control.tick input = some after := by
  have loops : ∃ swept, control.tickResolvers input = some swept :=
    Sweep.sweep_exists (List.finRange n) (control, ({} : Totals)) (List.nodup_finRange n)
      fun i _ => steps i
  rcases loops with ⟨⟨swept, totals⟩, loop⟩
  rcases adjusts with ⟨brake, adjusted⟩
  rcases loop_effect loop with ⟨counted, untouched⟩
  rw [← counted, ← untouched] at adjusted
  simp [tick, loop, adjusted]

/-- A fresh controller holds no edge, no step and no episode, and paces nobody. -/
theorem new_some {ceiling : ℚ} {start : Control n} (fresh : Control.new n ceiling = some start) :
    0 < ceiling ∧ start.controller.toGlobalBrake =
        { global := ⟨pacingInterval ceiling⟩, globalCeiling := ceiling } ∧
      ∀ i, start.lane i = { limiter := ⟨1⟩ } := by
  rw [Control.new] at fresh
  rcases Option.bind_eq_some_iff.mp fresh with ⟨global, built, rest⟩
  rcases Option.bind_eq_some_iff.mp rest with ⟨limiter, unlimited, returned⟩
  have positive : 0 < ceiling := by
    by_contra bad
    simp [RateLimiter.new, intervalFor, bad] at built
  rw [RateLimiter.new, interval_for_pos positive] at built
  rw [RateLimiter.new, interval_for_pos unlimited_pos, unlimited_interval] at unlimited
  cases built
  cases unlimited
  cases returned
  exact ⟨positive, rfl, fun _ => rfl⟩

end Control

end BlastDns.Controller
