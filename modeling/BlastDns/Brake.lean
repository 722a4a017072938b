import BlastDns.Limiter
import Mathlib.Data.List.Sort

/-!
`AttemptBrake` of `src/controller.rs`: paces attempts per second when loss is
well above what the pool loses at a clearly lower load. Instants and durations
are nanoseconds, measured seconds and rates exact rationals. Each early return
of the source's `tick` is the end of one of the functions below.
-/

namespace BlastDns.Brake

open Limiter

def retreat : ℚ := 85 / 100

structure Observation where
  attempted : ℕ := 0
  lost : ℕ := 0
  responded : ℕ := 0
  deriving DecidableEq

def attemptMinResolvers : ℕ := 8
def attemptWindowTimeouts : ℚ := 4
def attemptMinWindow : ℕ := 500
def attemptIdleQps : ℚ := 20
def attemptLossThreshold : ℚ := 3 / 100
def attemptReferenceBelow : ℚ := 6 / 10
def attemptProbeFraction : ℚ := 5 / 10
def attemptProbeWindows : ℕ := 2
def attemptReferenceWindowNs : ℕ := 60 * 10 ^ 9
def attemptMaxReferenceWindowNs : ℕ := 480 * 10 ^ 9
def attemptGoodputFloor : ℚ := 8 / 10
def attemptShapedFraction : ℚ := 95 / 100
def attemptMinRate : ℚ := 10
def attemptGrowth : ℚ := 105 / 100

structure Sample where
  atNs : ℕ
  rate : ℚ
  loss : ℚ
  delivered : ℚ
  deriving DecidableEq

structure Probe where
  restore : Option ℚ
  windows : ℕ
  deriving DecidableEq

structure AttemptBrake where
  pacer : AttemptPacer
  limit : Option ℚ := none
  window : Observation := {}
  dispatched : ℕ := 0
  seconds : ℚ := 0
  unshapedTicks : ℕ := 0
  settling : Bool := true
  idleTicks : ℕ := 0
  -- oldest sample first
  history : List Sample := []
  referenceWindowNs : ℕ := attemptReferenceWindowNs
  probe : Option Probe := none
  probed : Bool := false
  deriving DecidableEq

namespace AttemptBrake

def setLimit (brake : AttemptBrake) (limit : Option ℚ) : AttemptBrake :=
  let limit := limit.map fun rate => max rate attemptMinRate
  { brake with limit := limit, pacer := brake.pacer.setRate limit, settling := true }

def resetWindow (brake : AttemptBrake) : AttemptBrake :=
  { brake with window := {}, dispatched := 0, seconds := 0, unshapedTicks := 0 }

/-- Push the window at the back, then drop what is too old from the front. -/
def record (brake : AttemptBrake) (now : ℕ) (rate loss delivered : ℚ) : AttemptBrake :=
  let history := brake.history ++ [{ atNs := now, rate := rate, loss := loss, delivered := delivered }]
  { brake with
    history := history.dropWhile fun oldest => brake.referenceWindowNs < now - oldest.atNs }

/-- Whether loss at `rate` is well above the median at a clearly lower load. -/
def congested (brake : AttemptBrake) (rate loss : ℚ) : Option Bool :=
  let lower := (brake.history.filter fun sample =>
    sample.rate ≤ rate * attemptReferenceBelow).map Sample.loss
  if lower = [] then none
  else
    let reference := (lower.insertionSort (· ≤ ·)).getD (lower.length / 2) 0
    some (attemptLossThreshold < loss && reference + attemptLossThreshold < loss)

/-- A tick that sent too little: nothing to learn and nothing for a probe to measure. -/
def idle (brake : AttemptBrake) : AttemptBrake :=
  let brake := match brake.probe with
    | some probe => { brake with probe := none }.setLimit probe.restore
    | none => brake
  -- u32 saturating_add
  { brake with idleTicks := min (brake.idleTicks + 1) (2 ^ 32 - 1) }.resetWindow

def resume (brake : AttemptBrake) (seconds : ℚ) : AttemptBrake :=
  if 0 < brake.idleTicks then
    let idle := seconds * brake.idleTicks
    let brake := { brake with idleTicks := 0, settling := true }
    if 60 ≤ idle then
      { brake with
        history := []
        referenceWindowNs := attemptReferenceWindowNs
        probed := false }.setLimit none
    else brake
  else brake

def accumulate (brake : AttemptBrake) (seconds : ℚ) (attempted lost responded : ℕ) : AttemptBrake :=
  { brake with
    window := { brake.window with
      lost := brake.window.lost + lost
      responded := brake.window.responded + responded }
    dispatched := brake.dispatched + attempted
    seconds := brake.seconds + seconds
    unshapedTicks := if brake.pacer.waiting = 0 then brake.unshapedTicks + 1 else brake.unshapedTicks }

def measureProbe (brake : AttemptBrake) (probe : Probe) (now : ℕ) (rate loss delivered : ℚ) :
    AttemptBrake :=
  let brake := { brake with probe := none }.record now rate loss delivered
  if 1 < probe.windows then
    { brake with probe := some { probe with windows := probe.windows - 1 } }
  else { brake.setLimit probe.restore with probed := true }

/-- A window that ran below the limit: hold while congested, release otherwise. -/
def releaseUnshaped (brake : AttemptBrake) (rate loss : ℚ) : AttemptBrake :=
  if brake.congested rate loss ≠ some true then brake.setLimit none else brake

def act (brake : AttemptBrake) (now : ℕ) (rate loss delivered : ℚ) : AttemptBrake :=
  let bestHigher := ((brake.history.filter fun sample => rate < sample.rate).map
    Sample.delivered).foldl max 0
  let brake := brake.record now rate loss delivered
  match brake.congested rate loss with
  | none =>
      { brake with
        probe := some { restore := brake.limit, windows := attemptProbeWindows } }.setLimit
          (some (rate * attemptProbeFraction))
  | some congested =>
      let probed := brake.probed
      let brake := { brake with probed := false }
      let brake :=
        if probed && !congested then
          { brake with
            referenceWindowNs := min (brake.referenceWindowNs * 2) attemptMaxReferenceWindowNs }
        else brake
      if congested then
        let brake := { brake with referenceWindowNs := attemptReferenceWindowNs }
        if delivered < bestHigher * attemptGoodputFloor then brake
        else brake.setLimit (some (rate * retreat))
      else
        match brake.limit with
        | some limit => brake.setLimit (some (limit * attemptGrowth))
        | none => brake

def closeWindow (brake : AttemptBrake) (now : ℕ) : AttemptBrake :=
  let finished := brake.window.lost + brake.window.responded
  let loss : ℚ := brake.window.lost / finished
  let rate : ℚ := brake.dispatched / brake.seconds
  let delivered : ℚ := brake.window.responded / brake.seconds
  let shaped := match brake.limit with
    | none => true
    | some limit => brake.unshapedTicks = 0 || limit * attemptShapedFraction ≤ rate
  let settling := brake.settling
  let brake := { brake.resetWindow with settling := false }
  if settling then brake
  else
    let rate := brake.limit.getD rate
    match brake.probe with
    | some probe => brake.measureProbe probe now rate loss delivered
    | none =>
        if brake.limit.isSome && !shaped then brake.releaseUnshaped rate loss
        else brake.act now rate loss delivered

def tick (brake : AttemptBrake) (seconds : ℚ) (attempted lost responded : ℕ)
    (longestTimeout : ℚ) (now : ℕ) : AttemptBrake :=
  if attempted < attemptIdleQps * seconds then brake.idle
  else
    let brake := (brake.resume seconds).accumulate seconds attempted lost responded
    if brake.window.lost + brake.window.responded < attemptMinWindow ||
        brake.seconds < longestTimeout * attemptWindowTimeouts then brake
    else brake.closeWindow now

end AttemptBrake

end BlastDns.Brake
