import BlastDns.Limiter
import BlastDns.NetText

/-!
`ResolverHealth` of `src/health.rs`: counters, purgatory and permits of one
resolver. Each `record_*` function is one step here; the counters are u64 in
the source and never near overflow, so they are natural numbers. Times are
nanoseconds since the pool was built. The clients are in `Transport` and
`Descriptors`.
-/

namespace BlastDns.Health

open Limiter NetText

def rttEwmaShift : ℕ := 3
def rttMinWindowNs : ℕ := 30 * 10 ^ 9

structure ResolverHealth where
  resolver : SocketAddr
  requestTimeoutNs : ℕ
  purgatoryThreshold : ℕ
  purgatorySentenceNs : ℕ
  -- free permits of the in-flight semaphore
  inflight : ℕ
  limiter : RateLimiter
  active : Bool := true
  attempted : ℕ := 0
  answered : ℕ := 0
  empty : ℕ := 0
  timeout : ℕ := 0
  error : ℕ := 0
  consecutiveErrors : ℕ := 0
  benchedUntilNs : ℕ := 0
  purgatoryEntries : ℕ := 0
  truncated : ℕ := 0
  rttEwmaUs : ℕ := 0
  rttMinUs : ℕ := 0
  rttMinWindowNs : ℕ := 0
  deriving DecidableEq

namespace ResolverHealth

def isBenched (health : ResolverHealth) (nowNs : ℕ) : Bool :=
  nowNs < health.benchedUntilNs

/-- `try_acquire` and a completed `acquire`: take a permit if one is free. -/
def tryAcquire (health : ResolverHealth) : Option ResolverHealth :=
  if health.inflight = 0 then none else some { health with inflight := health.inflight - 1 }

def release (health : ResolverHealth) : ResolverHealth :=
  { health with inflight := health.inflight + 1 }

def recordDispatch (health : ResolverHealth) : ResolverHealth :=
  { health with attempted := health.attempted + 1 }

def recordTruncated (health : ResolverHealth) : ResolverHealth :=
  { health with truncated := health.truncated + 1 }

def decayErrors (health : ResolverHealth) : ResolverHealth :=
  { health with consecutiveErrors := health.consecutiveErrors - 1 }

def recordRtt (health : ResolverHealth) (rttUs nowNs : ℕ) : ResolverHealth :=
  let sample := max rttUs 1
  let previous := health.rttEwmaUs
  let ewma :=
    if previous = 0 then sample
    else previous - (previous >>> rttEwmaShift) + (sample >>> rttEwmaShift)
  let health := { health with rttEwmaUs := max ewma 1 }
  let lapsed : Bool := Health.rttMinWindowNs < nowNs - health.rttMinWindowNs
  if health.rttMinUs = 0 || lapsed then
    { health with rttMinUs := sample, rttMinWindowNs := nowNs }
  else if sample < health.rttMinUs then { health with rttMinUs := sample }
  else health

def recordResponse (health : ResolverHealth) (rttUs nowNs : ℕ) (hadAnswers : Bool) :
    ResolverHealth :=
  let health :=
    if hadAnswers then { health with answered := health.answered + 1 }
    else { health with empty := health.empty + 1 }
  health.decayErrors.recordRtt rttUs nowNs

def recordError (health : ResolverHealth) (isTimeout : Bool) (nowNs : ℕ) : ResolverHealth :=
  let health :=
    if isTimeout then { health with timeout := health.timeout + 1 }
    else { health with error := health.error + 1 }
  let consecutive := health.consecutiveErrors + 1
  let health := { health with consecutiveErrors := consecutive }
  if health.purgatoryThreshold = 0 || consecutive < health.purgatoryThreshold then health
  else if health.purgatorySentenceNs = 0 then health
  else
    { health with
      -- `as_nanos() as u64` keeps the low 64 bits, and so does the unchecked sum
      benchedUntilNs := (nowNs + health.purgatorySentenceNs % 2 ^ 64) % 2 ^ 64
      purgatoryEntries := health.purgatoryEntries + 1
      consecutiveErrors := 0 }

def recorded (health : ResolverHealth) : ℕ :=
  health.answered + health.empty + health.timeout + health.error

end ResolverHealth

section Frame

variable (health : ResolverHealth)

/-- The parts of a resolver that the in-flight accounting is about. -/
def ledger (health : ResolverHealth) : SocketAddr × ℕ × ℕ × ℕ :=
  (health.resolver, health.inflight, health.attempted, health.recorded)

theorem record_rtt_ledger (rttUs nowNs : ℕ) :
    ledger (health.recordRtt rttUs nowNs) = ledger health := by
  unfold ResolverHealth.recordRtt
  simp only
  split
  · rfl
  · split <;> rfl

/-- A response lands in exactly one bucket. -/
theorem record_response_ledger (rttUs nowNs : ℕ) (hadAnswers : Bool) :
    ledger (health.recordResponse rttUs nowNs hadAnswers) =
      (health.resolver, health.inflight, health.attempted, health.recorded + 1) := by
  rw [ResolverHealth.recordResponse, record_rtt_ledger]
  cases hadAnswers <;>
    simp [ledger, ResolverHealth.decayErrors, ResolverHealth.recorded] <;> omega

theorem record_error_ledger (isTimeout : Bool) (nowNs : ℕ) :
    ledger (health.recordError isTimeout nowNs) =
      (health.resolver, health.inflight, health.attempted, health.recorded + 1) := by
  unfold ResolverHealth.recordError
  cases isTimeout <;> simp only [Bool.false_eq_true, if_true, if_false] <;> split_ifs <;>
    simp [ledger, ResolverHealth.recorded] <;> omega

end Frame

end BlastDns.Health
