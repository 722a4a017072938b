import BlastDns.AttemptControl
import BlastDns.CapacityLoop
import BlastDns.NoRatchet
import Mathlib.Algebra.Order.Archimedean.Basic

/-!
Loss that does not depend on the rate. A first window of it looks like congestion
and costs a retreat; the second shows that the retreat bought nothing, so the
share is learned as a baseline, and from then on every window is clear. The
global limit grows back to the ceiling, a resolver's retreat is undone at once.
-/

namespace BlastDns.FixedLoss

open Limiter Judge Brake LaneTick Controller GlobalCeiling ControlRuns CapacityLoop Runs

section Judging

variable {share delivered best : ℚ}

theorem judge_unpaid (high : lossThreshold < share)
    (unpaid : delivered < best * retreatMustDeliver) :
    LossJudge.judge { best := some share, bestDelivered := some best } share delivered =
      (.baseline, { baseline := some share }) := by
  simp [LossJudge.judge, LossJudge.lowered, LossJudge.paying, LossJudge.endEpisode,
    not_le_of_gt high, not_le_of_gt unpaid]

theorem judge_learned :
    LossJudge.judge { baseline := some share } share delivered =
      (.clear, { baseline := some share }) := by
  have below : share ≤ share + lossThreshold := by
    norm_num [lossThreshold]
  simp [LossJudge.judge, LossJudge.lowered, LossJudge.endEpisode, below]

end Judging

section Windows

variable {share demand ceiling scale rate : ℚ} {full : GlobalBrake}

/-- A global window of a path that loses the same share at every rate. -/
structure Lossy (share scale rate : ℚ) (full : GlobalBrake) : Prop where
  dispatched : full.dispatchRate = rate
  lost : full.loss = share
  answered : full.delivered = scale * ((1 - share) * rate)

structure Demand (share demand ceiling : ℚ) : Prop where
  above : 2 / 100 < share
  half : share ≤ 1 / 2
  busy : 2 ≤ demand
  capped : demand ≤ ceiling

/-- What the brake has learned after so many windows: nothing, that there is loss, or
that the loss stays; then the limit grows until it is released. -/
inductive Learns (share demand ceiling scale : ℚ) : ℕ → Option ℚ → LossJudge → Prop
  | unjudged : Learns share demand ceiling scale 0 none {}
  | retreated : Learns share demand ceiling scale 1 (some (demand * retreat))
      { best := some share, bestDelivered := some (scale * ((1 - share) * demand)) }
  | easing (windows : ℕ) (short : demand * retreat * growth ^ (windows + 1) < ceiling) :
      Learns share demand ceiling scale (windows + 2)
        (some (demand * retreat * growth ^ (windows + 1))) { baseline := some share }
  | released (windows : ℕ) (reached : ceiling ≤ demand * retreat * growth ^ (windows + 1)) :
      Learns share demand ceiling scale (windows + 2) none { baseline := some share }

theorem lossy_delivers (lossy : Lossy share scale rate full)
    (enough : 100 ≤ full.globalWindow.attempted) (part : share < 1) :
    0 < scale * ((1 - share) * rate) := by
  have sent : (0 : ℚ) < full.globalWindow.attempted := by
    have : 0 < full.globalWindow.attempted := by omega
    exact_mod_cast this
  have fewer : full.globalWindow.lost < full.globalWindow.attempted := by
    have lost := lossy.lost
    rw [GlobalBrake.loss, div_eq_iff sent.ne'] at lost
    have scaled : (full.globalWindow.lost : ℚ) < full.globalWindow.attempted := by
      rw [lost]
      nlinarith
    exact_mod_cast scaled
  rw [← lossy.answered, GlobalBrake.delivered]
  apply div_pos
  · have some : 0 < full.globalWindow.attempted - full.globalWindow.lost := by omega
    exact_mod_cast some
  · exact lt_max_of_lt_right (by norm_num [minSeconds])

theorem grown_mono (busy : 0 ≤ demand) {fewer more : ℕ} (order : fewer ≤ more) :
    demand * retreat * growth ^ fewer ≤ demand * retreat * growth ^ more := by
  apply mul_le_mul_of_nonneg_left
  · exact pow_le_pow_right₀ (by norm_num [growth]) order
  · norm_num [retreat]
    exact busy

theorem eases {brake : GlobalBrake} {windows : ℕ} (kept : brake.globalCeiling = ceiling)
    (moving : 0 < ceiling) (positive : 0 < demand)
    (standing : brake.globalLimit = some (demand * retreat * growth ^ windows))
    (learned : brake.globalJudge = { baseline := some share }) :
    ∃ after, brake.ease = some after ∧
      Learns share demand ceiling scale (windows + 2) after.globalLimit after.globalJudge := by
  have grown : demand * retreat * growth ^ windows * growth =
      demand * retreat * growth ^ (windows + 1) := by rw [pow_succ, mul_assoc]
  by_cases reached : ceiling ≤ demand * retreat * growth ^ (windows + 1)
  · refine ⟨{ brake with globalLimit := none, global := ⟨pacingInterval ceiling⟩ }, ?_, ?_⟩
    · rw [GlobalBrake.ease, standing]
      dsimp only
      rw [grown, kept, if_pos reached]
      exact brake_set_rate _ moving
    · rw [learned]
      exact .released windows reached
  · have short := lt_of_not_ge reached
    have limited : 0 < demand * retreat * growth ^ windows := by
      have : 0 < retreat := by norm_num [retreat]
      have : 0 < growth := by norm_num [growth]
      positivity
    have below : demand * retreat * growth ^ windows * growth < brake.globalCeiling := by
      rw [grown, kept]
      exact short
    refine ⟨_, ease_to standing limited below, ?_⟩
    dsimp only
    rw [grown, learned]
    exact .easing windows short

theorem quiet_window {verdict : Verdict} {learned : LossJudge}
    (calm : ¬ maxBaselineLoss < full.loss) (quiet : verdict.isCongested = false)
    (judged : full.globalJudge.judge full.loss full.delivered = (verdict, learned)) :
    full.verdict.isCongested = false ∧ full.judgeWindow = (afterVerdict full).ease ∧
      (afterVerdict full).globalJudge = learned := by
  have same : full.verdict.isCongested = false := by
    rw [GlobalBrake.verdict, judged]
    exact quiet
  refine ⟨same, (judge_window_quiet same).trans (if_neg calm), ?_⟩
  rw [afterVerdict, judged]

theorem first_window (setting : Demand share demand ceiling) (kept : full.globalCeiling = ceiling)
    (standing : full.globalLimit = none) (remembered : full.globalJudge = {})
    (lossy : Lossy share scale (min (effectiveLimit full) demand) full) :
    full.verdict.isCongested = true ∧ ∃ after, full.judgeWindow = some after ∧
      Learns share demand ceiling scale 1 after.globalLimit after.globalJudge := by
  rcases setting with ⟨above, half, busy, capped⟩
  have rate : min (effectiveLimit full) demand = demand := by
    rw [effectiveLimit, standing, kept]
    exact min_eq_right capped
  rw [rate] at lossy
  have judged : full.globalJudge.judge full.loss full.delivered = (.congested false,
      { best := some share, bestDelivered := some (scale * ((1 - share) * demand)) }) := by
    rw [remembered, lossy.lost, lossy.answered]
    exact judge_first above
  have congested : full.verdict.isCongested = true := by
    rw [GlobalBrake.verdict, judged]
    rfl
  have moved := (judge_window_congested congested).trans
    (@retreat_to demand (afterVerdict full) full.dispatchRate
      (by rw [lossy.dispatched]; exact congrArg (Option.getD · demand) standing)
      (by norm_num [retreat]; linarith)
      (by change _ ≤ full.globalCeiling; rw [kept]; norm_num [retreat]; linarith))
  refine ⟨congested, _, moved, ?_⟩
  simp only [afterVerdict, judged]
  exact .retreated

theorem second_judged (setting : Demand share demand ceiling)
    (enough : 100 ≤ full.globalWindow.attempted)
    (standing : full.globalLimit = some (demand * retreat))
    (remembered : full.globalJudge =
      { best := some share, bestDelivered := some (scale * ((1 - share) * demand)) })
    (lossy : Lossy share scale (min (effectiveLimit full) demand) full) :
    full.globalJudge.judge full.loss full.delivered = (.baseline, { baseline := some share }) := by
  rcases setting with ⟨above, half, busy, capped⟩
  have rate : min (effectiveLimit full) demand = demand * retreat := by
    rw [effectiveLimit, standing]
    apply min_eq_left
    norm_num [retreat]
    linarith
  rw [rate] at lossy
  have unpaid : full.delivered < scale * ((1 - share) * demand) * retreatMustDeliver := by
    have delivers := lossy_delivers lossy enough (by linarith)
    rw [lossy.answered]
    norm_num [retreat, retreatMustDeliver] at delivers ⊢
    linarith
  rw [remembered, lossy.lost]
  exact judge_unpaid above unpaid

theorem learned_judged (remembered : full.globalJudge = { baseline := some share })
    (lost : full.loss = share) :
    full.globalJudge.judge full.loss full.delivered = (.clear, { baseline := some share }) := by
  rw [remembered, lost]
  exact judge_learned

/-- One judged window takes the brake from one stage to the next, and is congested in
none but the first. -/
theorem learning_window (setting : Demand share demand ceiling)
    (kept : full.globalCeiling = ceiling) (enough : 100 ≤ full.globalWindow.attempted) {windows : ℕ}
    (stage : Learns share demand ceiling scale windows full.globalLimit full.globalJudge)
    (lossy : Lossy share scale (min (effectiveLimit full) demand) full) :
    (full.verdict.isCongested = true ↔ windows = 0) ∧ ∃ after, full.judgeWindow = some after ∧
      Learns share demand ceiling scale (windows + 1) after.globalLimit after.globalJudge := by
  have positive : 0 < demand := by linarith [setting.busy]
  have moving : 0 < ceiling := lt_of_lt_of_le positive setting.capped
  have calm : ¬ maxBaselineLoss < full.loss := by
    rw [lossy.lost]
    norm_num [maxBaselineLoss]
    exact setting.half
  generalize standing : full.globalLimit = limit at stage
  generalize remembered : full.globalJudge = judge at stage
  cases stage with
  | unjudged =>
      rcases first_window setting kept standing remembered lossy with ⟨congested, moved⟩
      exact ⟨by simp [congested], moved⟩
  | retreated =>
      rcases quiet_window calm rfl (second_judged setting enough standing remembered lossy) with
        ⟨quiet, moved, learned⟩
      refine ⟨by simp [quiet], ?_⟩
      rw [moved]
      exact eases kept moving positive (by rw [pow_zero, mul_one]; exact standing) learned
  | easing windows short =>
      rcases quiet_window calm rfl (learned_judged remembered lossy.lost) with
        ⟨quiet, moved, learned⟩
      refine ⟨by simp [quiet], ?_⟩
      rw [moved]
      exact eases kept moving positive standing learned
  | released windows reached =>
      rcases quiet_window calm rfl (learned_judged remembered lossy.lost) with
        ⟨quiet, moved, learned⟩
      have unlimited : (afterVerdict full).globalLimit = none := standing
      refine ⟨by simp [quiet], afterVerdict full, ?_, ?_⟩
      · rw [moved, GlobalBrake.ease, unlimited]
      · rw [unlimited, learned]
        exact .released (windows + 1) (reached.trans (grown_mono positive.le (Nat.le_succ _)))

/-- A limit after the first retreat is a power of the growth, still below the ceiling. -/
theorem learns_limited (busy : 0 ≤ demand) {windows : ℕ} {limit : ℚ} {judge : LossJudge}
    (stage : Learns share demand ceiling scale windows (some limit) judge) :
    85 / 100 * demand ≤ limit ∧
      (2 ≤ windows → demand * retreat * growth ^ (windows - 1) < ceiling) := by
  have least : 85 / 100 * demand = demand * retreat * growth ^ 0 := by
    norm_num [retreat]
    ring
  rw [least]
  cases stage with
  | retreated =>
      rw [pow_zero, mul_one]
      exact ⟨le_rfl, fun more => absurd more (by decide)⟩
  | easing windows short => exact ⟨grown_mono busy (Nat.zero_le _), fun _ => short⟩

theorem learns_released {windows : ℕ} {judge : LossJudge} (judged : 1 ≤ windows)
    (stage : Learns share demand ceiling scale windows none judge) :
    2 ≤ windows ∧ ceiling ≤ demand * retreat * growth ^ (windows - 1) := by
  cases stage with
  | unjudged => exact absurd judged (by decide)
  | released windows reached => exact ⟨Nat.le_add_left _ _, reached⟩

end Windows

section GlobalRuns

variable {n : ℕ} {share demand ceiling scale : ℚ}
variable {inputs : ℕ → TickInput n} {states : ℕ → Control n}

instance (control : Control n) (input : TickInput n) : Decidable (ClosesWindow control input) :=
  inferInstanceAs (Decidable (100 ≤ (fullWindow control input).globalWindow.attempted))

def judgedBefore (inputs : ℕ → TickInput n) (states : ℕ → Control n) (time : ℕ) : ℕ :=
  (List.range time).countP fun earlier => ClosesWindow (states earlier) (inputs earlier)

def LossyLoop (share demand scale : ℚ) (inputs : ℕ → TickInput n) (states : ℕ → Control n) :
    Prop :=
  ∀ time, ClosesWindow (states time) (inputs time) →
    Lossy share scale (min (effectiveLimit (states time).controller.toGlobalBrake) demand)
      (fullWindow (states time) (inputs time))

theorem judged_before_succ (time : ℕ) :
    judgedBefore inputs states (time + 1) = judgedBefore inputs states time +
      if ClosesWindow (states time) (inputs time) then 1 else 0 := by
  rw [judgedBefore, List.range_succ, List.countP_append, List.countP_singleton]
  simp [judgedBefore]

theorem run_window (setting : Demand share demand ceiling) (run : ControlRun ceiling inputs states)
    (loop : LossyLoop share demand scale inputs states) {time windows : ℕ}
    (stage : Learns share demand ceiling scale windows (states time).controller.globalLimit
      (states time).controller.globalJudge)
    (enough : ClosesWindow (states time) (inputs time)) :
    ((fullWindow (states time) (inputs time)).verdict.isCongested = true ↔ windows = 0) ∧
      Learns share demand ceiling scale (windows + 1) (states (time + 1)).controller.globalLimit
        (states (time + 1)).controller.globalJudge := by
  have kept : (fullWindow (states time) (inputs time)).globalCeiling = ceiling := ceiling_kept run time
  rcases learning_window setting kept enough stage (loop time enough) with
    ⟨congested, after, moved, next⟩
  rw [tick_closed (run.ticks time) enough] at moved
  cases moved
  exact ⟨congested, next⟩

theorem run_learns (setting : Demand share demand ceiling) (run : ControlRun ceiling inputs states)
    (loop : LossyLoop share demand scale inputs states) (time : ℕ) :
    Learns share demand ceiling scale (judgedBefore inputs states time)
      (states time).controller.globalLimit (states time).controller.globalJudge := by
  induction time with
  | zero =>
      rw [(Control.new_some run.fresh).2.1]
      exact .unjudged
  | succ time ih =>
      rw [judged_before_succ]
      by_cases enough : ClosesWindow (states time) (inputs time)
      · rw [if_pos enough]
        exact (run_window setting run loop ih enough).2
      · rw [if_neg enough, tick_open (run.ticks time) enough]
        exact ih

theorem judged_before_mono {first last : ℕ} (order : first ≤ last) :
    judgedBefore inputs states first ≤ judgedBefore inputs states last := by
  induction last, order using Nat.le_induction with
  | base => exact le_rfl
  | succ last _ ih =>
      rw [judged_before_succ]
      exact Nat.le_add_right_of_le ih

theorem unlimited_past (setting : Demand share demand ceiling)
    (run : ControlRun ceiling inputs states) (loop : LossyLoop share demand scale inputs states)
    {windows time : ℕ} (two : 2 ≤ windows)
    (reached : ceiling ≤ demand * retreat * growth ^ (windows - 1))
    (judged : windows ≤ judgedBefore inputs states time) :
    (states time).controller.globalLimit = none := by
  have busy : 0 ≤ demand := by linarith [setting.busy]
  cases standing : (states time).controller.globalLimit with
  | none => rfl
  | some limit =>
      have stage := run_learns setting run loop time
      rw [standing] at stage
      have short := (learns_limited busy stage).2 (le_trans two judged)
      have grown := @grown_mono demand busy (windows - 1) (judgedBefore inputs states time - 1)
        (by omega)
      exact absurd (reached.trans grown) (not_le_of_gt short)

/-- The only congested window is the first; the limit stays above 0.85 of the demand,
is gone after finitely many windows, and does not come back. -/
theorem global_loss_learned (setting : Demand share demand ceiling)
    (run : ControlRun ceiling inputs states) (loop : LossyLoop share demand scale inputs states) :
    (∀ time, ClosesWindow (states time) (inputs time) →
      ((fullWindow (states time) (inputs time)).verdict.isCongested = true ↔
        judgedBefore inputs states time = 0)) ∧
    (∀ time limit, (states time).controller.globalLimit = some limit → 85 / 100 * demand ≤ limit) ∧
    (∃ bound, ∀ time, bound ≤ judgedBefore inputs states time →
      (states time).controller.globalLimit = none) ∧
    ∀ first last, first ≤ last → 1 ≤ judgedBefore inputs states first →
      (states first).controller.globalLimit = none → (states last).controller.globalLimit = none := by
  have busy : 0 < demand := by linarith [setting.busy]
  refine ⟨?_, ?_, ?_, ?_⟩
  · intro time enough
    exact (run_window setting run loop (run_learns setting run loop time) enough).1
  · intro time limit standing
    have stage := run_learns setting run loop time
    rw [standing] at stage
    exact (learns_limited busy.le stage).1
  · have factor : 0 < demand * retreat := by
      norm_num [retreat]
      exact busy
    rcases pow_unbounded_of_one_lt (ceiling / (demand * retreat))
      (show (1 : ℚ) < growth by norm_num [growth]) with ⟨power, large⟩
    have reached : ceiling ≤ demand * retreat * growth ^ (power + 2 - 1) := by
      rw [div_lt_iff₀ factor, mul_comm] at large
      exact large.le.trans (grown_mono busy.le (by omega))
    exact ⟨power + 2, fun time judged =>
      unlimited_past setting run loop (Nat.le_add_left _ _) reached judged⟩
  · intro first last order judged gone
    have stage := run_learns setting run loop first
    rw [gone] at stage
    rcases learns_released judged stage with ⟨two, reached⟩
    exact unlimited_past setting run loop two reached (judged_before_mono order)

end GlobalRuns

section Lanes

open LaneCoherence NoRatchet

variable {share demand : ℚ} {lane after : Lane} {current : Observation} {timeout seconds : ℚ}
variable {now : ℕ}

/-- A window of a resolver that loses the same share at every rate. -/
structure LossyLane (share rate : ℚ) (closed : Lane) : Prop where
  sent : closed.observedQps = rate
  lost : closed.loss = share
  answered : closed.delivered = (1 - share) * rate

structure ResolverDemand (share demand : ℚ) : Prop where
  above : 2 / 100 < share
  part : share < 1
  busy : 118 ≤ demand
  within : demand ≤ 10 ^ 8

structure Unpaced (lane : Lane) : Prop where
  edge : lane.edge = none
  limiter : lane.limiter = ⟨1⟩

/-- One retreat below the demand, which the next window may undo. -/
structure Retreated (share demand : ℚ) (seenAt : ℕ) (lane : Lane) : Prop where
  edge : lane.edge = some { qps := demand, seenAt := seenAt }
  limiter : lane.limiter = ⟨pacingInterval (demand * retreat)⟩
  stepped : lane.stepped = true
  undo : lane.undo = some (none, unlimitedQps)
  judge : lane.judge = { best := some share, bestDelivered := some ((1 - share) * demand) }

theorem unpaced_rate {limiter : RateLimiter} (unpaced : limiter = ⟨1⟩) :
    limiter.rate = unlimitedQps := by
  rw [unpaced]
  norm_num [RateLimiter.rate, nanosPerSecond, unlimitedQps]

/-- Pacing at 0.85 of the demand, to the nanosecond, stays under 0.95 of it. -/
theorem retreated_rate (setting : ResolverDemand share demand) :
    RateLimiter.rate ⟨pacingInterval (demand * retreat)⟩ < 95 / 100 * demand := by
  rcases setting with ⟨_, _, busy, within⟩
  have positive : 0 < demand * retreat := by
    norm_num [retreat]
    linarith
  have fits : nanosPerSecond / (demand * retreat) ≤ u64Max := by
    rw [div_le_iff₀ positive]
    norm_num [nanosPerSecond, u64Max, retreat]
    linarith
  have rounded : nanosPerSecond / (demand * retreat) - 1 / 2 <
      (pacingInterval (demand * retreat) : ℚ) := Quantised.ticks_lower fits
  have interval : (0 : ℚ) < pacingInterval (demand * retreat) := by
    exact_mod_cast pacing_interval_pos _
  rw [RateLimiter.rate, div_lt_iff₀ interval]
  have scaled : nanosPerSecond / (demand * retreat) * demand = nanosPerSecond * (100 / 85) := by
    norm_num [retreat]
    field_simp
  have multiplied := mul_lt_mul_of_pos_right rounded (show 0 < demand by linarith)
  rw [sub_mul, scaled] at multiplied
  norm_num [nanosPerSecond] at multiplied ⊢
  linarith

theorem expire_unpaced (unpaced : Unpaced lane) (now : ℕ) : expire lane now = lane := by
  rw [expire, unpaced.edge]

theorem unpaced_open (coherent : Coherent lane) (unpaced : Unpaced lane)
    (ticked : lane.tick current timeout seconds now = some after)
    (open_ : lane.judged current timeout seconds = none) :
    Unpaced after ∧ after.judge = lane.judge := by
  rcases ticked_cases coherent ticked with ⟨_, window, windowSeconds, _, same⟩ | ⟨_, judged, _⟩
  · have kept : Unpaced { lane with
        perResolver := current, window := window, windowSeconds := windowSeconds } :=
      ⟨unpaced.edge, unpaced.limiter⟩
    rw [same, expire_unpaced kept]
    exact ⟨kept, rfl⟩
  · rw [open_] at judged
    cases judged

def settledBy (closed : Lane) (now : ℕ) : Verdict → Lane
  | .clear => expire { afterVerdict closed with stepped := false } now
  | .baseline => takeBack (afterVerdict closed)
  | .congested converging => stepDown (afterVerdict closed) converging closed.observedQps now

theorem judged_settles (coherent : Coherent lane)
    (ticked : lane.tick current timeout seconds now = some after) {closed : Lane}
    (judged : lane.judged current timeout seconds = some closed) :
    closed = lane.accumulate current seconds ∧ after = settledBy closed now closed.verdict := by
  rcases ticked_cases coherent ticked with ⟨none, _⟩ | ⟨other, seen, opened, outcome⟩
  · rw [judged] at none
    cases none
  · rw [judged] at seen
    cases seen
    refine ⟨opened, ?_⟩
    rcases outcome with ⟨verdict, same⟩ | ⟨verdict, same⟩ | ⟨converging, verdict, same⟩ <;>
      rw [same, verdict] <;> rfl

theorem unpaced_retreats (setting : ResolverDemand share demand) (coherent : Coherent lane)
    (unpaced : Unpaced lane) (fresh : lane.judge = {})
    (ticked : lane.tick current timeout seconds now = some after) {closed : Lane}
    (judged : lane.judged current timeout seconds = some closed)
    (lossy : LossyLane share (min lane.limiter.rate demand) closed) :
    Retreated share demand now after := by
  rcases setting with ⟨above, part, busy, within⟩
  have rate : min lane.limiter.rate demand = demand := by
    rw [unpaced_rate unpaced.limiter]
    apply min_eq_right
    norm_num [unlimitedQps]
    linarith
  rw [rate] at lossy
  have high : lossThreshold < share := above
  rcases judged_settles coherent ticked judged with ⟨opened, same⟩
  have remembered : closed.judge = {} := by rw [opened]; exact fresh
  have found : closed.judge.judge closed.loss closed.delivered = (.congested false,
      { best := some share, bestDelivered := some ((1 - share) * demand) }) := by
    rw [remembered, lossy.lost, lossy.answered]
    exact judge_first high
  have edge : (afterVerdict closed).edge = none := by rw [opened]; exact unpaced.edge
  have limiter : (afterVerdict closed).limiter = ⟨1⟩ := by rw [opened]; exact unpaced.limiter
  have lowered : target { qps := demand, seenAt := now } = demand * retreat := by
    rw [target, mul_comm]
    apply max_eq_left
    norm_num [retreat, minRateQps]
    linarith
  have stepped : demand * retreat < unlimitedQps * (1 + retreat) / 2 := by
    norm_num [retreat, unlimitedQps]
    linarith
  have next : (afterVerdict closed).nextEdge false closed.observedQps now =
      { qps := demand, seenAt := now } := by
    rw [Lane.nextEdge, edge, lossy.sent]
  rw [same, Lane.verdict, found, settledBy, stepDown, next, lowered, unpaced_rate limiter, edge]
  refine ⟨rfl, rfl, decide_eq_true stepped, ?_, congrArg Prod.snd found⟩
  simp [stepped]

theorem retreated_learns (setting : ResolverDemand share demand) (coherent : Coherent lane)
    {seenAt : ℕ} (retreated : Retreated share demand seenAt lane)
    (ticked : lane.tick current timeout seconds now = some after) {closed : Lane}
    (judged : lane.judged current timeout seconds = some closed)
    (lossy : LossyLane share (min lane.limiter.rate demand) closed) :
    Unpaced after ∧ after.judge = { baseline := some share } := by
  have slower := retreated_rate setting
  rcases setting with ⟨above, part, busy, within⟩
  have high : lossThreshold < share := above
  rcases judged_settles coherent ticked judged with ⟨opened, same⟩
  have remembered : closed.judge =
      { best := some share, bestDelivered := some ((1 - share) * demand) } := by
    rw [opened]
    exact retreated.judge
  have unpaid : closed.delivered < (1 - share) * demand * retreatMustDeliver := by
    rw [lossy.answered, retreated.limiter, mul_assoc]
    apply mul_lt_mul_of_pos_left _ (by linarith)
    apply lt_of_le_of_lt (min_le_left _ _)
    norm_num [retreatMustDeliver]
    linarith
  have found : closed.judge.judge closed.loss closed.delivered =
      (.baseline, { baseline := some share }) := by
    rw [remembered, lossy.lost]
    exact judge_unpaid high unpaid
  have stepped : (afterVerdict closed).stepped = true := by rw [opened]; exact retreated.stepped
  have undo : (afterVerdict closed).undo = some (none, unlimitedQps) := by
    rw [opened]
    exact retreated.undo
  rw [same, Lane.verdict, found, settledBy, takeBack, stepped, undo]
  exact ⟨⟨rfl, congrArg RateLimiter.mk unlimited_interval⟩, congrArg Prod.snd found⟩

theorem learned_clear (coherent : Coherent lane) (unpaced : Unpaced lane)
    (learned : lane.judge = { baseline := some share })
    (ticked : lane.tick current timeout seconds now = some after) {closed : Lane}
    (judged : lane.judged current timeout seconds = some closed) {rate : ℚ}
    (lossy : LossyLane share rate closed) :
    Unpaced after ∧ after.judge = { baseline := some share } := by
  rcases judged_settles coherent ticked judged with ⟨opened, same⟩
  have remembered : closed.judge = { baseline := some share } := by rw [opened]; exact learned
  have found : closed.judge.judge closed.loss closed.delivered =
      (.clear, { baseline := some share }) := by
    rw [remembered, lossy.lost]
    exact judge_learned
  have kept : Unpaced { afterVerdict closed with stepped := false } := by
    rw [opened]
    exact ⟨unpaced.edge, unpaced.limiter⟩
  rw [same, Lane.verdict, found, settledBy, expire_unpaced kept]
  exact ⟨kept, congrArg Prod.snd found⟩

theorem retreated_open (coherent : Coherent lane) {seenAt : ℕ}
    (retreated : Retreated share demand seenAt lane)
    (ticked : lane.tick current timeout seconds now = some after)
    (open_ : lane.judged current timeout seconds = none) (young : now - seenAt < edgeTtlNs) :
    Retreated share demand seenAt after := by
  rcases ticked_cases coherent ticked with ⟨_, window, windowSeconds, _, same⟩ | ⟨_, judged, _⟩
  · rw [same, expire, retreated.edge]
    dsimp only
    rw [if_neg (not_le_of_gt young)]
    exact ⟨rfl, retreated.limiter, retreated.stepped, retreated.undo, retreated.judge⟩
  · rw [open_] at judged
    cases judged

end Lanes

section ResolverRuns

open LaneCoherence NoRatchet

variable {n : ℕ} {share demand ceiling scale : ℚ}
variable {inputs : ℕ → TickInput n} {states : ℕ → Control n}

def LossyResolver (share demand : ℚ) (inputs : ℕ → TickInput n) (states : ℕ → Control n)
    (i : Fin n) : Prop :=
  ∀ time closed, judgedWindow (states time) (inputs time) i = some closed →
    LossyLane share (min ((states time).limiters i).rate demand) closed

def NoneJudged (inputs : ℕ → TickInput n) (states : ℕ → Control n) (i : Fin n)
    (first last : ℕ) : Prop :=
  ∀ time, first ≤ time → time < last → judgedWindow (states time) (inputs time) i = none

theorem lane_ticked (run : ControlRun ceiling inputs states) (i : Fin n) (time : ℕ) :
    Coherent ((states time).lane i) ∧ Control.resolverBody (inputs time) i ((states time).lane i) =
      some ((states (time + 1)).lane i) :=
  ⟨(control_run_sound run time).2 i, Control.tick_lane (run.ticks time) i⟩

theorem untouched_until (run : ControlRun ceiling inputs states) {i : Fin n} {last : ℕ}
    (before : NoneJudged inputs states i 0 last) :
    Unpaced ((states last).lane i) ∧ ((states last).lane i).judge = {} := by
  induction last with
  | zero =>
      rw [(Control.new_some run.fresh).2.2 i]
      exact ⟨⟨rfl, rfl⟩, rfl⟩
  | succ last ih =>
      rcases ih fun time lower upper => before time lower (Nat.lt_succ_of_lt upper) with
        ⟨unpaced, fresh⟩
      rcases lane_ticked run i last with ⟨coherent, ticked⟩
      rw [← fresh]
      exact unpaced_open coherent unpaced ticked (before last (Nat.zero_le _) (Nat.lt_succ_self _))

theorem retreated_until (setting : ResolverDemand share demand)
    (run : ControlRun ceiling inputs states) {i : Fin n}
    (loop : LossyResolver share demand inputs states i) {first last : ℕ} (order : first < last)
    (before : NoneJudged inputs states i 0 first)
    (one : (judgedWindow (states first) (inputs first) i).isSome)
    (between : NoneJudged inputs states i (first + 1) last)
    (young : ∀ time, first < time → time < last →
      (inputs time).now - (inputs first).now < edgeTtlNs) :
    Retreated share demand (inputs first).now ((states last).lane i) := by
  induction last, order using Nat.le_induction with
  | base =>
      rcases lane_ticked run i first with ⟨coherent, ticked⟩
      rcases untouched_until run before with ⟨unpaced, fresh⟩
      rcases Option.isSome_iff_exists.mp one with ⟨closed, judged⟩
      exact unpaced_retreats setting coherent unpaced fresh ticked judged (loop first closed judged)
  | succ last order ih =>
      have retreated := ih (fun time lower upper => between time lower (Nat.lt_succ_of_lt upper))
        fun time lower upper => young time lower (Nat.lt_succ_of_lt upper)
      rcases lane_ticked run i last with ⟨coherent, ticked⟩
      exact retreated_open coherent retreated ticked (between last order (Nat.lt_succ_self _))
        (young last order (Nat.lt_succ_self _))

/-- The second judged window, if it comes before the edge of the first is stale, lifts
the pacing for good. -/
theorem resolver_loss_learned (setting : ResolverDemand share demand)
    (run : ControlRun ceiling inputs states) {i : Fin n}
    (loop : LossyResolver share demand inputs states i) {first second : ℕ} (order : first < second)
    (before : NoneJudged inputs states i 0 first)
    (one : (judgedWindow (states first) (inputs first) i).isSome)
    (between : NoneJudged inputs states i (first + 1) second)
    (young : ∀ time, first < time → time < second →
      (inputs time).now - (inputs first).now < edgeTtlNs)
    (two : (judgedWindow (states second) (inputs second) i).isSome) {time : ℕ}
    (later : second < time) :
    ((states time).lane i).edge = none ∧ ((states time).limiters i).rate = unlimitedQps := by
  have retreated := retreated_until setting run loop order before one between young
  have learned : Unpaced ((states time).lane i) ∧
      ((states time).lane i).judge = { baseline := some share } := by
    induction time, later using Nat.le_induction with
    | base =>
        rcases lane_ticked run i second with ⟨coherent, ticked⟩
        rcases Option.isSome_iff_exists.mp two with ⟨closed, judged⟩
        exact retreated_learns setting coherent retreated ticked judged (loop second closed judged)
    | succ time _ ih =>
        rcases lane_ticked run i time with ⟨coherent, ticked⟩
        cases seen : judgedWindow (states time) (inputs time) i with
        | none =>
            rw [← ih.2]
            exact unpaced_open coherent ih.1 ticked seen
        | some closed =>
            exact learned_clear coherent ih.1 ih.2 ticked seen (loop time closed seen)
  exact ⟨learned.1.edge, unpaced_rate learned.1.limiter⟩

/-- Loss that does not depend on the rate costs at most one retreat. The global limit
falls once, to 0.85 of the demand, and is gone for good after finitely many windows. A
resolver's pacing is lifted for good by its second judged window, unless its edge is
stale before that. -/
theorem fixed_loss_costs_one_retreat (run : ControlRun ceiling inputs states) :
    (∀ share demand scale, Demand share demand ceiling →
      LossyLoop share demand scale inputs states →
      (∀ time, ClosesWindow (states time) (inputs time) →
        ((fullWindow (states time) (inputs time)).verdict.isCongested = true ↔
          judgedBefore inputs states time = 0)) ∧
      (∀ time limit, (states time).controller.globalLimit = some limit →
        85 / 100 * demand ≤ limit) ∧
      (∃ bound, ∀ time, bound ≤ judgedBefore inputs states time →
        (states time).controller.globalLimit = none) ∧
      ∀ first last, first ≤ last → 1 ≤ judgedBefore inputs states first →
        (states first).controller.globalLimit = none →
        (states last).controller.globalLimit = none) ∧
    ∀ share demand i, ResolverDemand share demand → LossyResolver share demand inputs states i →
      ∀ first second, first < second → NoneJudged inputs states i 0 first →
        (judgedWindow (states first) (inputs first) i).isSome →
        NoneJudged inputs states i (first + 1) second →
        (judgedWindow (states second) (inputs second) i).isSome →
        (∀ time, first < time → time < second →
          (inputs time).now - (inputs first).now < edgeTtlNs) →
        ∀ time, second < time → ((states time).lane i).edge = none ∧
          ((states time).limiters i).rate = unlimitedQps := by
  constructor
  · intro share demand scale setting loop
    exact global_loss_learned setting run loop
  · intro share demand i setting loop first second order before one between two young time later
    exact resolver_loss_learned setting run loop order before one between young two later

def halfLost (elapsedNs now attempted : ℕ) : TickInput 1 where
  elapsedNs := elapsedNs
  now := now
  resolvers _ :=
    { resolver := .v4 ⟨127, 0, 0, 1⟩ 53
      requestTimeoutNs := 10 ^ 9
      purgatoryThreshold := 0
      purgatorySentenceNs := 0
      inflight := 1
      limiter := ⟨1⟩
      attempted := attempted
      timeout := attempted / 2
      answered := attempted / 2 }
  outcomes := { completed := attempted, failed := attempted / 2 }
  waiting := 0

/-- Both windows are empty and every counter has been seen. -/
structure Still (attempted : ℕ) (control : Control 1) : Prop where
  finished : control.controller.previousOutcomes.attempted = attempted
  window : control.controller.globalWindow.attempted = 0
  snapshot : (control.lane 0).perResolver.attempted = attempted
  gathered : (control.lane 0).window.attempted = 0

theorem still_tick {attempted elapsedNs now : ℕ} {control after : Control 1}
    (still : Still attempted control) (coherent : Coherent (control.lane 0))
    (ticked : control.tick (halfLost elapsedNs now attempted) = some after) :
    Still attempted after ∧ ¬ ClosesWindow control (halfLost elapsedNs now attempted) ∧
      judgedWindow control (halfLost elapsedNs now attempted) 0 = none := by
  have open_ : ¬ ClosesWindow control (halfLost elapsedNs now attempted) := by
    simp [ClosesWindow, fullWindow, GlobalBrake.accumulate, halfLost, still.finished, still.window]
  have empty : ∀ seconds, ((control.lane 0).accumulate
      (observe ((halfLost elapsedNs now attempted).resolvers 0)) seconds).window.attempted = 0 := by
    intro seconds
    simp [Lane.accumulate, halfLost, observe, still.snapshot, still.gathered]
  refine ⟨?_, open_, ?_⟩
  · rcases tick_window coherent (Control.tick_lane ticked 0) with ⟨snapshot, added⟩
    have same := tick_open ticked open_
    refine ⟨?_, ?_, ?_, ?_⟩
    · rw [same]
      rfl
    · rw [same]
      simp [fullWindow, GlobalBrake.accumulate, halfLost, still.finished, still.window]
    · rw [snapshot]
      rfl
    · rcases added with window | window
      · rw [window]
        exact empty _
      · rw [window]
  · rw [judgedWindow, Lane.judged]
    split
    · rfl
    · rw [empty, if_pos (by decide)]

theorem still_run {states : ℕ → Control 1} {inputs : ℕ → TickInput 1} {attempted first : ℕ}
    (run : ControlRun ceiling inputs states) (start : Still attempted (states first))
    (quiet : ∀ time, first ≤ time → ∃ elapsedNs now, inputs time = halfLost elapsedNs now attempted)
    (time : ℕ) (order : first ≤ time) :
    Still attempted (states time) ∧ ¬ ClosesWindow (states time) (inputs time) ∧
      judgedWindow (states time) (inputs time) 0 = none := by
  have still : Still attempted (states time) := by
    induction time, order using Nat.le_induction with
    | base => exact start
    | succ time order ih =>
        rcases quiet time order with ⟨elapsedNs, now, same⟩
        have ticked := run.ticks time
        rw [same] at ticked
        exact (still_tick ih (lane_ticked run 0 time).1 ticked).1
  rcases quiet time order with ⟨elapsedNs, now, same⟩
  have ticked := run.ticks time
  rw [same] at ticked ⊢
  exact ⟨still, (still_tick still (lane_ticked run 0 time).1 ticked).2⟩

def showsLane (demand : ℚ) (control : Control 1) (input : TickInput 1) : Bool :=
  (judgedWindow control input 0).all fun closed =>
    let rate := min (control.limiters 0).rate demand
    closed.observedQps = rate && closed.loss = 1 / 2 && closed.delivered = (1 - 1 / 2) * rate

def showsGlobal (demand : ℚ) (control : Control 1) (input : TickInput 1) : Bool :=
  let full := fullWindow control input
  let rate := min (effectiveLimit control.controller.toGlobalBrake) demand
  full.dispatchRate = rate && full.loss = 1 / 2 && full.delivered = 1 * ((1 - 1 / 2) * rate)

theorem shows_lane {demand : ℚ} {control : Control 1} {input : TickInput 1}
    (shown : showsLane demand control input = true) {closed : Lane}
    (judged : judgedWindow control input 0 = some closed) :
    LossyLane (1 / 2) (min (control.limiters 0).rate demand) closed := by
  simp only [showsLane, judged, Option.all_some, Bool.and_eq_true, decide_eq_true_eq] at shown
  exact ⟨shown.1.1, shown.1.2, shown.2⟩

theorem shows_global {demand : ℚ} {control : Control 1} {input : TickInput 1}
    (shown : showsGlobal demand control input = true) :
    Lossy (1 / 2) 1 (min (effectiveLimit control.controller.toGlobalBrake) demand)
      (fullWindow control input) := by
  simp only [showsGlobal, Bool.and_eq_true, decide_eq_true_eq] at shown
  exact ⟨shown.1.1, shown.1.2, shown.2⟩

/-- At a demand of 2500/17 the retreat is a whole number of nanoseconds. -/
def learningInputs : ℕ → TickInput 1
  | 0 => halfLost (17 * 10 ^ 9) (17 * 10 ^ 9) 2500
  | 1 => halfLost (2 * 10 ^ 9) (19 * 10 ^ 9) 2750
  | _ + 2 => halfLost (10 ^ 9) (19 * 10 ^ 9) 2750

section Learning

variable {states : ℕ → Control 1} (run : ControlRun (2500 / 17) learningInputs states)

include run

theorem learning_shows {time : ℕ} (early : time < 2) :
    showsLane (2500 / 17) (states time) (learningInputs time) = true ∧
      showsGlobal (2500 / 17) (states time) (learningInputs time) = true ∧
      (judgedWindow (states time) (learningInputs time) 0).isSome = true ∧
      ClosesWindow (states time) (learningInputs time) := by
  have computed : ∀ time < 2,
      (AttemptControl.controlStates (2500 / 17) learningInputs time).map (fun control =>
        (showsLane (2500 / 17) control (learningInputs time),
          showsGlobal (2500 / 17) control (learningInputs time),
          (judgedWindow control (learningInputs time) 0).isSome,
          decide (ClosesWindow control (learningInputs time)))) =
      some (true, true, true, true) := by decide +kernel
  have shown := computed time early
  simpa only [AttemptControl.control_run_states run, Option.map_some, Option.some.injEq,
    Prod.mk.injEq, decide_eq_true_eq] using shown

theorem learning_settles :
    (states 2).controller.globalLimit = none ∧ Still 2750 (states 2) := by
  have settled : (AttemptControl.controlStates (2500 / 17) learningInputs 2).map (fun control =>
      (control.controller.globalLimit, control.controller.previousOutcomes.attempted,
        control.controller.globalWindow.attempted, (control.lane 0).perResolver.attempted,
        (control.lane 0).window.attempted)) = some (none, 2750, 0, 2750, 0) := by decide +kernel
  simp only [AttemptControl.control_run_states run, Option.map_some, Option.some.injEq,
    Prod.mk.injEq] at settled
  rcases settled with ⟨limit, finished, window, snapshot, gathered⟩
  exact ⟨limit, finished, window, snapshot, gathered⟩

theorem learning_quiet (time : ℕ) (order : 2 ≤ time) :
    ¬ ClosesWindow (states time) (learningInputs time) ∧
      judgedWindow (states time) (learningInputs time) 0 = none := by
  apply (still_run run (learning_settles run).2 _ time order).2
  intro time order
  obtain ⟨later, rfl⟩ := Nat.exists_eq_add_of_le' order
  exact ⟨_, _, rfl⟩

theorem learning_global : LossyLoop (1 / 2) (2500 / 17) 1 learningInputs states := by
  intro time closes
  by_cases early : time < 2
  · exact shows_global (learning_shows run early).2.1
  · exact absurd closes (learning_quiet run time (not_lt.mp early)).1

theorem learning_lane : LossyResolver (1 / 2) (2500 / 17) learningInputs states 0 := by
  intro time closed judged
  by_cases early : time < 2
  · exact shows_lane (learning_shows run early).1 judged
  · rw [(learning_quiet run time (not_lt.mp early)).2] at judged
    cases judged

end Learning

theorem fixed_loss_costs_one_retreat_half :
    ∃ states, ControlRun (2500 / 17) learningInputs states ∧
      (states 1).controller.globalLimit = some 125 ∧
      (∀ time, 2 ≤ time → (states time).controller.globalLimit = none) ∧
      ((states 1).limiters 0).rate = 125 ∧
      ∀ time, 2 ≤ time → ((states time).lane 0).edge = none ∧
        ((states time).limiters 0).rate = unlimitedQps := by
  have positive : (0 : ℚ) < 2500 / 17 := by norm_num
  rcases control_run_exists positive learningInputs with ⟨states, run⟩
  have reached : (AttemptControl.controlStates (2500 / 17) learningInputs 1).map (fun control =>
      (control.controller.globalLimit, (control.limiters 0).rate)) = some (some 125, 125) := by
    decide +kernel
  simp only [AttemptControl.control_run_states run, Option.map_some, Option.some.injEq,
    Prod.mk.injEq] at reached
  have judged : 1 ≤ judgedBefore learningInputs states 2 := by
    have first : judgedBefore learningInputs states 1 = 1 := by
      rw [judged_before_succ, if_pos (learning_shows run Nat.two_pos).2.2.2]
      rfl
    exact first.ge.trans (judged_before_mono (by decide))
  rcases fixed_loss_costs_one_retreat run with ⟨globally, perResolver⟩
  refine ⟨states, run, reached.1, ?_, reached.2, ?_⟩
  · intro time order
    have setting : Demand (1 / 2) (2500 / 17) (2500 / 17) :=
      ⟨by norm_num, by norm_num, by norm_num, le_rfl⟩
    exact (globally _ _ 1 setting (learning_global run)).2.2.2 2 time order judged
      (learning_settles run).1
  · intro time order
    have setting : ResolverDemand (1 / 2) (2500 / 17) :=
      ⟨by norm_num, by norm_num, by norm_num, by norm_num⟩
    have one := (learning_shows run Nat.two_pos).2.2.1
    have two := (learning_shows run Nat.one_lt_two).2.2.1
    apply perResolver _ _ 0 setting (learning_lane run) 0 1 one_pos _ one _ two _ time order
    · intro time _ upper
      exact absurd upper (Nat.not_lt_zero _)
    · intro time lower upper
      omega
    · intro time lower upper
      omega

/-- The same demand, and a silence of thirty seconds after the first window. -/
def silentInputs : ℕ → TickInput 1
  | 0 => halfLost (17 * 10 ^ 9) (17 * 10 ^ 9) 2500
  | 1 => halfLost (30 * 10 ^ 9) (47 * 10 ^ 9) 2500
  | 2 => halfLost (17 * 10 ^ 9) (64 * 10 ^ 9) 5000
  | _ + 3 => halfLost (10 ^ 9) (64 * 10 ^ 9) 5000

/-- The edge has expired, so the second window starts over: the resolver is paced once
more. -/
theorem resolver_paced_again :
    ∃ states, ControlRun (2500 / 17) silentInputs states ∧
      ResolverDemand (1 / 2) (2500 / 17) ∧
      LossyResolver (1 / 2) (2500 / 17) silentInputs states 0 ∧
      (judgedWindow (states 0) (silentInputs 0) 0).isSome ∧
      judgedWindow (states 1) (silentInputs 1) 0 = none ∧
      (judgedWindow (states 2) (silentInputs 2) 0).isSome ∧
      ((states 3).lane 0).edge ≠ none ∧ ((states 3).limiters 0).rate = 125 := by
  have positive : (0 : ℚ) < 2500 / 17 := by norm_num
  rcases control_run_exists positive silentInputs with ⟨states, run⟩
  have computed : (List.range 3).map (fun time =>
      (AttemptControl.controlStates (2500 / 17) silentInputs time).map fun control =>
        (showsLane (2500 / 17) control (silentInputs time),
          (judgedWindow control (silentInputs time) 0).isSome)) =
      [some (true, true), some (true, false), some (true, true)] := by decide +kernel
  have settled : (AttemptControl.controlStates (2500 / 17) silentInputs 3).map (fun control =>
      ((control.lane 0).edge.isSome, (control.limiters 0).rate,
        control.controller.previousOutcomes.attempted, control.controller.globalWindow.attempted,
        (control.lane 0).perResolver.attempted, (control.lane 0).window.attempted)) =
      some (true, 125, 5000, 0, 5000, 0) := by decide +kernel
  simp only [List.range, List.range.loop, List.map_cons, List.map_nil,
    AttemptControl.control_run_states run, Option.map_some, List.cons.injEq, Option.some.injEq,
    Prod.mk.injEq] at computed settled
  rcases computed with ⟨⟨first, one⟩, ⟨second, none⟩, ⟨third, two⟩, _⟩
  rcases settled with ⟨edge, rate, finished, window, snapshot, gathered⟩
  have still := still_run run ⟨finished, window, snapshot, gathered⟩ (by
    intro time order
    obtain ⟨later, rfl⟩ := Nat.exists_eq_add_of_le' order
    exact ⟨_, _, rfl⟩)
  refine ⟨states, run, ⟨by norm_num, by norm_num, by norm_num, by norm_num⟩, ?_, one, ?_, two, ?_,
    rate⟩
  · intro time closed judged
    rcases time with _ | _ | _ | later
    · exact shows_lane first judged
    · exact shows_lane second judged
    · exact shows_lane third judged
    · rw [(still (later + 3) (Nat.le_add_left _ _)).2.2] at judged
      cases judged
  · exact Option.not_isSome_iff_eq_none.mp (by simp [none])
  · exact Option.isSome_iff_ne_none.mp edge

end ResolverRuns

end BlastDns.FixedLoss
