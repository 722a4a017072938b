import BlastDns.Limiter
import BlastDns.Runs
import Mathlib.Algebra.Order.Floor.Ring
import Mathlib.Tactic.Linarith
import Mathlib.Tactic.Positivity

/-!
`AttemptPacer` of `src/limiter.rs` with its callers and its ticker. Callers of
`acquire` are all alike, so it is enough how many stand at each point of it. The
semaphore hands new permits to the callers queued at it first and counts only
the rest as available; a caller that was handed one has yet to run before it
gives up its place in `waiting`. `none` is a panic of the semaphore.
-/

namespace BlastDns.Pacer

open Limiter Runs

def burstSeconds : ℚ := 1 / 100

def maxPermits : ℕ := u64Max >>> 3

/-- `as usize` of a float: truncated, and saturated at both ends. -/
def asUsize (value : ℚ) : ℕ := min ⌊value⌋₊ u64Max

/-- The pacer, and how many calls of `acquire` stand where. -/
structure Pacing where
  pacer : AttemptPacer := {}
  -- found a rate set, not yet counted
  entering : ℕ := 0
  -- counted, not yet at the semaphore
  arriving : ℕ := 0
  queued : ℕ := 0
  -- handed a permit, not yet resumed
  assigned : ℕ := 0
  deriving DecidableEq

namespace Pacing

/-- `add_permits`: the queue is served first. -/
def addPermits (pacing : Pacing) (permits : ℕ) : Option Pacing :=
  let served := min permits pacing.queued
  let tokens := pacing.pacer.tokens + (permits - served)
  if maxPermits < tokens then none
  else
    some { pacing with
      pacer := { pacing.pacer with tokens := tokens }
      queued := pacing.queued - served
      assigned := pacing.assigned + served }

/-- What a caller does next. -/
inductive Caller where
  | call
  | count
  | arrive
  | resume
  | cancelQueued
  | cancelAssigned

def uncount (pacer : AttemptPacer) : AttemptPacer := { pacer with waiting := pacer.waiting - 1 }

def callerStep (pacing : Pacing) : Caller → Option Pacing
  | .call =>
      if pacing.pacer.rate.isNone then some pacing
      else some { pacing with entering := pacing.entering + 1 }
  | .count =>
      if pacing.entering = 0 then none
      else
        some { pacing with
          entering := pacing.entering - 1
          arriving := pacing.arriving + 1
          pacer := { pacing.pacer with waiting := pacing.pacer.waiting + 1 } }
  | .arrive =>
      if pacing.arriving = 0 then none
      else if pacing.pacer.tokens = 0 then
        some { pacing with arriving := pacing.arriving - 1, queued := pacing.queued + 1 }
      else
        some { pacing with
          arriving := pacing.arriving - 1
          assigned := pacing.assigned + 1
          pacer := { pacing.pacer with tokens := pacing.pacer.tokens - 1 } }
  | .resume =>
      if pacing.assigned = 0 then none
      else
        some { pacing with assigned := pacing.assigned - 1, pacer := uncount pacing.pacer }
  | .cancelQueued =>
      if pacing.queued = 0 then none
      else some { pacing with queued := pacing.queued - 1, pacer := uncount pacing.pacer }
  | .cancelAssigned =>
      -- the permit it was handed goes back to the semaphore
      if pacing.assigned = 0 then none
      else
        addPermits { pacing with
          assigned := pacing.assigned - 1, pacer := uncount pacing.pacer } 1

def burst (rate : ℚ) : ℕ := asUsize (max (rate * burstSeconds) 1)

def granted (pacer : AttemptPacer) (seconds : ℚ) : ℕ :=
  match pacer.rate with
  | none => pacer.waiting - pacer.tokens
  | some rate => min (asUsize ⌊pacer.carry + rate * seconds⌋) (burst rate - pacer.tokens)

def carried (pacer : AttemptPacer) (seconds : ℚ) : ℚ :=
  match pacer.rate with
  | none => pacer.carry
  | some rate => pacer.carry + rate * seconds - ⌊pacer.carry + rate * seconds⌋

def refill (pacing : Pacing) (seconds : ℚ) : Option Pacing :=
  addPermits { pacing with pacer := { pacing.pacer with carry := carried pacing.pacer seconds } }
    (granted pacing.pacer seconds)

end Pacing

open Pacing

section Refills

variable {pacing after : Pacing}

theorem add_permits_some {permits : ℕ} (added : pacing.addPermits permits = some after) :
    after = { pacing with
      pacer := { pacing.pacer with
        tokens := pacing.pacer.tokens + (permits - min permits pacing.queued) }
      queued := pacing.queued - min permits pacing.queued
      assigned := pacing.assigned + min permits pacing.queued } := by
  rw [addPermits] at added
  split at added
  · cases added
  · exact (Option.some.inj added).symm

theorem refill_some {seconds : ℚ} (refilled : pacing.refill seconds = some after) :
    after = { pacing with
      pacer := { pacing.pacer with
        carry := carried pacing.pacer seconds
        tokens := pacing.pacer.tokens +
          (granted pacing.pacer seconds - min (granted pacing.pacer seconds) pacing.queued) }
      queued := pacing.queued - min (granted pacing.pacer seconds) pacing.queued
      assigned := pacing.assigned + min (granted pacing.pacer seconds) pacing.queued } :=
  add_permits_some refilled

def burstTokens (rate : ℚ) : ℕ := max ⌊rate / 100⌋₊ 1

theorem burst_le (rate : ℚ) : burst rate ≤ burstTokens rate := by
  have scaled : rate * burstSeconds = rate / 100 := by
    rw [burstSeconds]
    ring
  rw [burst, asUsize, burstTokens, scaled]
  apply le_trans (min_le_left _ _)
  rcases le_total (rate / 100) 1 with small | large
  · rw [max_eq_right small, Nat.floor_one]
    exact le_max_right _ _
  · rw [max_eq_left large]
    exact le_max_left _ _

theorem granted_le_burst {pacer : AttemptPacer} {rate : ℚ} (paced : pacer.rate = some rate)
    (seconds : ℚ) : granted pacer seconds ≤ burst rate - pacer.tokens := by
  rw [granted, paced]
  exact min_le_right _ _

theorem as_usize_le {value : ℚ} (nonneg : 0 ≤ value) : (asUsize value : ℚ) ≤ value := by
  have floored : (⌊value⌋₊ : ℚ) ≤ value := Nat.floor_le nonneg
  have saturated : (asUsize value : ℚ) ≤ ⌊value⌋₊ := by exact_mod_cast min_le_left _ _
  linarith

theorem granted_add_carried {pacer : AttemptPacer} {rate seconds : ℚ}
    (paced : pacer.rate = some rate) (sum : 0 ≤ pacer.carry + rate * seconds) :
    (granted pacer seconds : ℚ) + carried pacer seconds ≤ pacer.carry + rate * seconds := by
  have whole : (0 : ℚ) ≤ ⌊pacer.carry + rate * seconds⌋ := by
    exact_mod_cast Int.floor_nonneg.mpr sum
  have fewer : granted pacer seconds ≤ asUsize ⌊pacer.carry + rate * seconds⌋ := by
    rw [granted, paced]
    exact min_le_left _ _
  have bounded : (granted pacer seconds : ℚ) ≤ ⌊pacer.carry + rate * seconds⌋ :=
    le_trans (by exact_mod_cast fewer) (as_usize_le whole)
  rw [carried, paced]
  linarith

theorem carried_fraction {pacer : AttemptPacer} {rate : ℚ} (paced : pacer.rate = some rate)
    (seconds : ℚ) : 0 ≤ carried pacer seconds ∧ carried pacer seconds < 1 := by
  rw [carried, paced]
  exact ⟨Int.fract_nonneg _, Int.fract_lt_one _⟩

/-- A refill fills the bucket up to the burst, and does not empty a fuller one. -/
theorem refill_free {rate seconds : ℚ} (paced : pacing.pacer.rate = some rate)
    (refilled : pacing.refill seconds = some after) :
    after.pacer.tokens ≤ max (burstTokens rate) pacing.pacer.tokens := by
  have room := granted_le_burst paced seconds
  have short := burst_le rate
  rw [refill_some refilled]
  dsimp only
  omega

end Refills

section Schedules

/-- The pacer on a clock. `previous` is when the ticker last refilled it, and `added`
counts the permits of all refills since. -/
structure Timed where
  pacing : Pacing
  now : ℚ
  previous : ℚ
  added : ℕ := 0

inductive Event where
  | elapse (seconds : ℚ)
  | refill
  | caller (caller : Caller)

def timedStep (timed : Timed) : Event → Option Timed
  | .elapse seconds =>
      if 0 ≤ seconds then some { timed with now := timed.now + seconds } else none
  | .refill =>
      (timed.pacing.refill (timed.now - timed.previous)).map fun pacing =>
        { timed with
          pacing := pacing
          previous := timed.now
          added := timed.added + granted timed.pacing.pacer (timed.now - timed.previous) }
  | .caller caller =>
      (timed.pacing.callerStep caller).map fun pacing => { timed with pacing := pacing }

def rateSet (pacing : Pacing) (rate setAt previous : ℚ) : Timed where
  pacing := { pacing with pacer := pacing.pacer.setRate (some rate) }
  now := setAt
  previous := previous

/-- The first refill reaches back, but fills at most the burst; from there on every
token is paid for by the time since. -/
structure Metered (rate setAt : ℚ) (timed : Timed) : Prop where
  paced : timed.pacing.pacer.rate = some rate
  fraction : 0 ≤ timed.pacing.pacer.carry ∧ timed.pacing.pacer.carry < 1
  clock : setAt ≤ timed.now ∧ timed.previous ≤ timed.now
  paid : timed.added = 0 ∨ (setAt ≤ timed.previous ∧
    (timed.added : ℚ) + timed.pacing.pacer.carry ≤
      burstTokens rate + 1 + rate * (timed.previous - setAt))

theorem caller_step_pacer {pacing after : Pacing} {caller : Caller}
    (stepped : pacing.callerStep caller = some after) :
    after.pacer.rate = pacing.pacer.rate ∧ after.pacer.carry = pacing.pacer.carry := by
  cases caller with
  | cancelAssigned =>
      rw [callerStep] at stepped
      split at stepped
      · cases stepped
      · rw [add_permits_some stepped]
        exact ⟨rfl, rfl⟩
  | arrive =>
      rw [callerStep] at stepped
      split at stepped
      · cases stepped
      · split at stepped <;> cases stepped <;> exact ⟨rfl, rfl⟩
  | call | count | resume | cancelQueued =>
      rw [callerStep] at stepped
      split at stepped <;> cases stepped <;> exact ⟨rfl, rfl⟩

theorem refill_metered {rate setAt : ℚ} (positive : 0 < rate) {timed after : Timed}
    (metered : Metered rate setAt timed) (stepped : timedStep timed .refill = some after) :
    Metered rate setAt after := by
  rcases Option.map_eq_some_iff.mp stepped with ⟨pacing, refilled, same⟩
  rcases metered with ⟨paced, fraction, clock, paid⟩
  have kept := refill_some refilled
  have carries : pacing.pacer.carry =
      carried timed.pacing.pacer (timed.now - timed.previous) := by rw [kept]
  have next := carried_fraction paced (timed.now - timed.previous)
  have passed : 0 ≤ rate * (timed.now - timed.previous) :=
    mul_nonneg positive.le (sub_nonneg.mpr clock.2)
  subst same
  refine ⟨?_, ?_, ⟨clock.1, le_rfl⟩, Or.inr ⟨clock.1, ?_⟩⟩
  · rw [kept]
    exact paced
  · rw [carries]
    exact next
  · dsimp only
    rw [carries]
    push_cast
    rcases paid with none | ⟨since, before⟩
    · -- the stretch before the rate was set counts too, but only up to the burst
      have first : (granted timed.pacing.pacer (timed.now - timed.previous) : ℚ) ≤
          burstTokens rate := by
        have room := granted_le_burst paced (timed.now - timed.previous)
        have short := burst_le rate
        exact_mod_cast (by omega : granted timed.pacing.pacer (timed.now - timed.previous) ≤
          burstTokens rate)
      have since := mul_nonneg positive.le (sub_nonneg.mpr clock.1)
      rw [none, Nat.cast_zero]
      linarith
    · have spent := granted_add_carried paced (by linarith : 0 ≤ timed.pacing.pacer.carry +
        rate * (timed.now - timed.previous))
      calc (timed.added : ℚ) + granted timed.pacing.pacer (timed.now - timed.previous) +
            carried timed.pacing.pacer (timed.now - timed.previous)
          ≤ timed.added + timed.pacing.pacer.carry + rate * (timed.now - timed.previous) := by
            linarith
        _ ≤ burstTokens rate + 1 + rate * (timed.previous - setAt) +
            rate * (timed.now - timed.previous) := by linarith
        _ = burstTokens rate + 1 + rate * (timed.now - setAt) := by ring

theorem timed_step_metered {rate setAt : ℚ} (positive : 0 < rate) {timed after : Timed}
    {event : Event} (metered : Metered rate setAt timed)
    (stepped : timedStep timed event = some after) : Metered rate setAt after := by
  cases event with
  | elapse seconds =>
      rw [timedStep] at stepped
      split at stepped
      · rename_i forward
        cases stepped
        have clock := metered.clock
        exact ⟨metered.paced, metered.fraction, ⟨by dsimp only; linarith, by dsimp only; linarith⟩,
          metered.paid⟩
      · cases stepped
  | refill => exact refill_metered positive metered stepped
  | caller caller =>
      rcases Option.map_eq_some_iff.mp stepped with ⟨pacing, moved, same⟩
      rcases caller_step_pacer moved with ⟨rate, carry⟩
      subst same
      refine ⟨by rw [rate]; exact metered.paced, by rw [carry]; exact metered.fraction,
        metered.clock, ?_⟩
      rw [carry]
      exact metered.paid

/-- Whatever state a rate is set in, and whenever the refills and the callers come,
the tokens added are bounded by the burst, one, and the rate times the time since. -/
theorem tokens_follow_rate {rate setAt previous : ℚ} (positive : 0 < rate)
    (earlier : previous ≤ setAt) (pacing : Pacing) {timed : Timed}
    (reached : Relation.ReflTransGen (fun before after => ∃ event,
      timedStep before event = some after) (rateSet pacing rate setAt previous) timed) :
    (timed.added : ℚ) ≤ (max ⌊rate / 100⌋₊ 1 : ℕ) + 1 + rate * (timed.now - setAt) ∧
    (0 ≤ timed.pacing.pacer.carry ∧ timed.pacing.pacer.carry < 1) ∧
    ∀ after, timedStep timed .refill = some after →
      after.pacing.pacer.tokens ≤ max (max ⌊rate / 100⌋₊ 1) timed.pacing.pacer.tokens := by
  have metered : Metered rate setAt timed := by
    apply reachable_invariant (Metered rate setAt) _ reached
    · exact ⟨rfl, ⟨le_rfl, one_pos⟩, ⟨le_rfl, earlier⟩, Or.inl rfl⟩
    · rintro before after held ⟨event, stepped⟩
      exact timed_step_metered positive held stepped
  refine ⟨?_, metered.fraction, ?_⟩
  · have clock := metered.clock
    have burst : (0 : ℚ) ≤ burstTokens rate := Nat.cast_nonneg _
    rcases metered.paid with none | ⟨_, paid⟩
    · have since := mul_nonneg positive.le (sub_nonneg.mpr clock.1)
      rw [none, Nat.cast_zero]
      exact add_nonneg (add_nonneg burst zero_le_one) since
    · have later : rate * (timed.previous - setAt) ≤ rate * (timed.now - setAt) :=
        mul_le_mul_of_nonneg_left (by linarith) positive.le
      have fraction := metered.fraction.1
      change (timed.added : ℚ) ≤ burstTokens rate + 1 + rate * (timed.now - setAt)
      linarith
  · intro after stepped
    rcases Option.map_eq_some_iff.mp stepped with ⟨filled, refilled, same⟩
    subst same
    exact refill_free metered.paced refilled

/-- A hundred milliseconds of idling are credited to a rate of 250, which fill the
bucket; the next refill finds one token taken. -/
theorem tokens_follow_rate_250 :
    ∃ timed, Relation.ReflTransGen (fun before after => ∃ event,
        timedStep before event = some after) (rateSet {} 250 0 (-1 / 10)) timed ∧
      timed.added = 3 ∧
      (timed.added : ℚ) ≤ (max ⌊(250 : ℚ) / 100⌋₊ 1 : ℕ) + 1 + 250 * (timed.now - 0) := by
  have replayed : (List.foldlM timedStep (rateSet {} 250 0 (-1 / 10))
      [.caller .call, .caller .count, .caller .arrive, .refill, .caller .resume,
        .elapse (1 / 100), .refill]).map (fun timed => timed.added) = some 3 := by
    decide +kernel
  rcases Option.map_eq_some_iff.mp replayed with ⟨timed, ends, added⟩
  have reached := replay_reaches ends
  exact ⟨timed, reached, added, (tokens_follow_rate (by norm_num) (by norm_num) {} reached).1⟩

end Schedules

end BlastDns.Pacer
