import BlastDns.Quantised

/-!
The pacing half of `src/limiter.rs`. A limiter keeps whole nanoseconds between
permits; f64 rates are read as exact rationals. `none` is the panic of the
positive-rate assertion. The cursor that hands out slots is a separate concern:
`set_rate` and `rate` never touch it.
-/

namespace BlastDns.Limiter

open Quantised

def nanosPerSecond : ℚ := 1000000000

def u64Max : ℕ := 2 ^ 64 - 1

/-- `UNLIMITED_QPS`: high enough that pacing never sleeps. -/
def unlimitedQps : ℚ := 1000000000

structure RateLimiter where
  intervalNs : ℕ
  deriving DecidableEq

/-- The value `interval_for` computes once its assertion has passed; the cast
to u64 saturates. -/
def pacingInterval (queriesPerSecond : ℚ) : ℕ :=
  ticks nanosPerSecond u64Max queriesPerSecond

def intervalFor (queriesPerSecond : ℚ) : Option ℕ :=
  if 0 < queriesPerSecond then some (pacingInterval queriesPerSecond) else none

namespace RateLimiter

def new (queriesPerSecond : ℚ) : Option RateLimiter :=
  (intervalFor queriesPerSecond).map fun interval => { intervalNs := interval }

def setRate (limiter : RateLimiter) (queriesPerSecond : ℚ) : Option RateLimiter :=
  (intervalFor queriesPerSecond).map fun interval => { limiter with intervalNs := interval }

def rate (limiter : RateLimiter) : ℚ :=
  nanosPerSecond / limiter.intervalNs

end RateLimiter

/-- The token pacer as the attempt brake and its callers share it. -/
structure AttemptPacer where
  rate : Option ℚ := none
  -- free permits of the token semaphore
  tokens : ℕ := 0
  carry : ℚ := 0
  waiting : ℕ := 0
  deriving DecidableEq

def AttemptPacer.setRate (pacer : AttemptPacer) (rate : Option ℚ) : AttemptPacer :=
  { pacer with rate := rate, carry := 0 }

theorem nanos_pos : 0 < nanosPerSecond := by
  norm_num [nanosPerSecond]

theorem unlimited_pos : 0 < unlimitedQps := by
  norm_num [unlimitedQps]

theorem u64_room : 1 ≤ u64Max := by
  norm_num [u64Max]

theorem interval_for_pos {queriesPerSecond : ℚ} (positive : 0 < queriesPerSecond) :
    intervalFor queriesPerSecond = some (pacingInterval queriesPerSecond) :=
  if_pos positive

theorem interval_for_eq {queriesPerSecond : ℚ} {intervalNs : ℕ}
    (stored : intervalFor queriesPerSecond = some intervalNs) :
    intervalNs = pacingInterval queriesPerSecond := by
  rw [intervalFor] at stored
  split at stored <;> cases stored
  rfl

theorem set_rate_pos {queriesPerSecond : ℚ} (limiter : RateLimiter)
    (positive : 0 < queriesPerSecond) :
    limiter.setRate queriesPerSecond = some ⟨pacingInterval queriesPerSecond⟩ := by
  rw [RateLimiter.setRate, interval_for_pos positive, Option.map_some]

theorem pacing_interval_pos (queriesPerSecond : ℚ) : 1 ≤ pacingInterval queriesPerSecond :=
  ticks_pos u64_room queriesPerSecond

theorem pacing_interval_antitone {slow fast : ℚ} (moving : 0 < slow) (order : slow ≤ fast) :
    pacingInterval fast ≤ pacingInterval slow :=
  ticks_antitone nanos_pos moving order

theorem unlimited_interval : pacingInterval unlimitedQps = 1 := by
  have one : unlimitedQps = nanosPerSecond / (1 : ℕ) := by
    norm_num [unlimitedQps, nanosPerSecond]
  rw [one]
  exact ticks_grid nanos_pos le_rfl u64_room

theorem one_qps_interval : pacingInterval 1 = 1000000000 := by
  have billion : (1 : ℚ) = nanosPerSecond / (1000000000 : ℕ) := by
    norm_num [nanosPerSecond]
  rw [billion]
  exact ticks_grid nanos_pos (by norm_num) (by norm_num [u64Max])

theorem pacing_interval_le_second {queriesPerSecond : ℚ} (floor : 1 ≤ queriesPerSecond) :
    pacingInterval queriesPerSecond ≤ 1000000000 := by
  have wide := pacing_interval_antitone one_pos floor
  rwa [one_qps_interval] at wide

theorem rate_pos {limiter : RateLimiter} (lower : 1 ≤ limiter.intervalNs) : 0 < limiter.rate := by
  have : (1 : ℚ) ≤ limiter.intervalNs := by exact_mod_cast lower
  exact div_pos nanos_pos (by linarith)

/-- Storing the rate just read keeps the spacing to the nanosecond. -/
theorem pacing_interval_rate {limiter : RateLimiter} (lower : 1 ≤ limiter.intervalNs)
    (upper : limiter.intervalNs ≤ u64Max) :
    pacingInterval limiter.rate = limiter.intervalNs :=
  ticks_grid nanos_pos lower upper

theorem rate_lt_iff {fast slow : RateLimiter} (lowerFast : 1 ≤ fast.intervalNs)
    (lowerSlow : 1 ≤ slow.intervalNs) :
    slow.rate < fast.rate ↔ fast.intervalNs < slow.intervalNs := by
  have fastPos : (0 : ℚ) < fast.intervalNs := by exact_mod_cast lowerFast
  have slowPos : (0 : ℚ) < slow.intervalNs := by exact_mod_cast lowerSlow
  rw [RateLimiter.rate, RateLimiter.rate, div_lt_div_iff_of_pos_left nanos_pos slowPos fastPos]
  exact Nat.cast_lt

end BlastDns.Limiter
