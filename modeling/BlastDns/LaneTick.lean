import BlastDns.Brake
import BlastDns.Health
import BlastDns.Judge

/-!
The per-resolver part of `AdaptiveController::tick`. A lane is the i-th entry of
each of the controller's parallel vectors together with resolver i's limiter;
the loop body reads and writes nothing else of the controller. `none` is a
panic: the only one in reach is the positive-rate assertion of the limiter.
-/

namespace BlastDns.LaneTick

open Limiter Judge Brake Health

def growth : ℚ := 125 / 100
def minSamples : ℕ := 100
def maxWindowTimeouts : ℚ := 5
def edgeTtlNs : ℕ := 30 * 10 ^ 9
def minRateQps : ℚ := 1

-- the `1e-6` floor under every measured duration
def minSeconds : ℚ := 1 / 1000000

def asSecs (nanos : ℕ) : ℚ := nanos / 1000000000

structure Edge where
  qps : ℚ
  seenAt : ℕ
  deriving DecidableEq

structure Lane where
  perResolver : Observation := {}
  edge : Option Edge := none
  stepped : Bool := false
  undo : Option (Option Edge × ℚ) := none
  judge : LossJudge := {}
  window : Observation := {}
  windowSeconds : ℚ := 0
  limiter : RateLimiter
  deriving DecidableEq

def observe (resolver : ResolverHealth) : Observation where
  attempted := resolver.attempted
  lost := resolver.timeout + resolver.error
  responded := resolver.answered + resolver.empty

def target (edge : Edge) : ℚ := max (retreat * edge.qps) minRateQps

namespace Lane

/-- Replace the snapshot and add the tick to the open window; u64 differences saturate. -/
def accumulate (lane : Lane) (current : Observation) (seconds : ℚ) : Lane :=
  { lane with
    perResolver := current
    window :=
      { attempted := lane.window.attempted + (current.attempted - lane.perResolver.attempted)
        lost := lane.window.lost + (current.lost - lane.perResolver.lost)
        responded := lane.window.responded + (current.responded - lane.perResolver.responded) }
    windowSeconds := lane.windowSeconds + seconds }

def gathering (lane : Lane) (timeout : ℚ) : Bool :=
  lane.windowSeconds < timeout ||
    (lane.window.attempted < minSamples && lane.windowSeconds < timeout * maxWindowTimeouts)

def resetWindow (lane : Lane) : Lane :=
  { lane with window := {}, windowSeconds := 0 }

def loss (lane : Lane) : ℚ := min (lane.window.lost / lane.window.attempted) 1

def delivered (lane : Lane) : ℚ := lane.window.responded / max lane.windowSeconds minSeconds

def observedQps (lane : Lane) : ℚ := lane.window.attempted / max lane.windowSeconds minSeconds

def setRate (lane : Lane) (queriesPerSecond : ℚ) : Option Lane :=
  (lane.limiter.setRate queriesPerSecond).map fun limiter => { lane with limiter := limiter }

/-- `relax`: expire a stale edge, otherwise climb toward the retreat target. -/
def relax (lane : Lane) (now : ℕ) : Option Lane :=
  match lane.edge with
  | none => some lane
  | some edge =>
      if edgeTtlNs ≤ now - edge.seenAt then
        { lane with edge := none, judge := lane.judge.endEpisode }.setRate unlimitedQps
      else
        let current := lane.limiter.rate
        if current < target edge then lane.setRate (min (current * growth) (target edge))
        else some lane

def undoRetreat (lane : Lane) : Option Lane :=
  match lane.stepped, lane.undo with
  | true, some (edge, rate) =>
      { lane with stepped := false, undo := none, edge := edge }.setRate rate
  | _, _ => some { lane with stepped := false }

/-- The edge a congested window settles on: a first one from observation, a lower
one while the retreats are shown to work, otherwise the standing one. -/
def nextEdge (lane : Lane) (converging : Bool) (observedQps : ℚ) (now : ℕ) : Edge :=
  let rate := lane.limiter.rate
  let shaped := lane.stepped && retreat * rate ≤ observedQps
  match lane.edge with
  | none => { qps := observedQps, seenAt := now }
  | some edge =>
      if converging && shaped then { qps := min edge.qps rate, seenAt := now } else edge

def retreatBelow (lane : Lane) (converging : Bool) (observedQps : ℚ) (now : ℕ) : Option Lane :=
  let rate := lane.limiter.rate
  let edge := lane.nextEdge converging observedQps now
  -- a real step, not the limiter's nanosecond rounding of the same rate
  let stepped : Bool := target edge < rate * (1 + retreat) / 2
  { lane with
    stepped := stepped
    undo := if stepped then some (lane.edge, rate) else lane.undo
    edge := some edge }.setRate (target edge)

/-- The verdict on a closed window and what it does to the lane. -/
def judgeWindow (lane : Lane) (now : ℕ) : Option Lane :=
  let verdict := lane.judge.judge lane.loss lane.delivered
  let judged := { lane.resetWindow with judge := verdict.2 }
  match verdict.1 with
  | .clear => { judged with stepped := false }.relax now
  | .baseline => judged.undoRetreat
  | .congested converging => judged.retreatBelow converging lane.observedQps now

def tick (lane : Lane) (current : Observation) (timeout seconds : ℚ) (now : ℕ) : Option Lane :=
  let lane := lane.accumulate current seconds
  if lane.gathering timeout then lane.relax now
  else if lane.window.attempted < minSamples then lane.resetWindow.relax now
  else lane.judgeWindow now

def judged (lane : Lane) (current : Observation) (timeout seconds : ℚ) : Option Lane :=
  let lane := lane.accumulate current seconds
  if lane.gathering timeout then none
  else if lane.window.attempted < minSamples then none
  else some lane

def verdict (closed : Lane) : Verdict := (closed.judge.judge closed.loss closed.delivered).1

end Lane

end BlastDns.LaneTick
