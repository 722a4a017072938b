import BlastDns.ControlRuns
import Mathlib.Algebra.Order.Archimedean.Basic

/-!
The global brake in closed loop with a path of fixed capacity: what is sent
above the capacity is lost. The safe region is an alternation. While an episode
is open the limit is one retreat below the rate of the last window, and that
rate was itself too high; after a clear window the limit is one growth step
above a rate that was not. Both keep the limit near the capacity from below,
and the clear window bounds it from above.
-/

namespace BlastDns.CapacityLoop

open Limiter Judge Brake LaneTick Controller GlobalCeiling ControlRuns Runs

def overload (capacity rate : ℚ) : ℚ := max 0 (1 - capacity / rate)

structure Loaded (capacity rate : ℚ) (full : GlobalBrake) : Prop where
  dispatched : full.dispatchRate = rate
  lost : full.loss = overload capacity rate
  answered : full.delivered = min rate capacity

structure Setting (capacity demand ceiling : ℚ) : Prop where
  room : 2 ≤ capacity
  busy : 13 / 10 * capacity ≤ demand
  within : demand ≤ 18 * capacity
  capped : demand ≤ ceiling

def easedTop (capacity : ℚ) : ℚ := 12756 / 10000 * capacity

/-- Where the loop can be once it has retreated. -/
inductive Tracks (capacity top : ℚ) : Option ℚ → LossJudge → Prop
  | retreating (previous : ℚ) (lossy : capacity < 98 / 100 * previous) (bounded : previous ≤ top) :
      Tracks capacity top (some (previous * retreat))
        { best := some (1 - capacity / previous), bestDelivered := some capacity }
  | eased (limit : ℚ) (above : 108 / 100 * capacity < limit) (below : limit ≤ easedTop capacity) :
      Tracks capacity top (some limit) {}

section Judging

variable {capacity rate loss delivered best bestDelivered : ℚ}

theorem overload_low (moving : 0 < rate) (low : 98 / 100 * rate ≤ capacity) :
    overload capacity rate ≤ lossThreshold := by
  apply max_le
  · norm_num [lossThreshold]
  · have share : 98 / 100 ≤ capacity / rate := by rwa [le_div_iff₀ moving]
    norm_num [lossThreshold]
    linarith

theorem overload_high (moving : 0 < rate) (high : capacity < 98 / 100 * rate) :
    overload capacity rate = 1 - capacity / rate ∧ lossThreshold < 1 - capacity / rate := by
  have share : capacity / rate < 98 / 100 := by rwa [div_lt_iff₀ moving]
  constructor
  · apply max_eq_right
    linarith
  · norm_num [lossThreshold]
    linarith

theorem judge_low (low : loss ≤ lossThreshold) (best bestDelivered : Option ℚ) :
    LossJudge.judge { best := best, bestDelivered := bestDelivered } loss delivered =
      (.clear, {}) := by
  simp [LossJudge.judge, LossJudge.lowered, LossJudge.endEpisode, low]

theorem judge_first (high : lossThreshold < loss) :
    LossJudge.judge {} loss delivered =
      (.congested false, { best := some loss, bestDelivered := some delivered }) := by
  simp [LossJudge.judge, LossJudge.lowered, LossJudge.improving, LossJudge.paying,
    not_le_of_gt high]

theorem judge_improves (high : lossThreshold < loss) (improves : loss < best * retreatMustImprove)
    (pays : bestDelivered * retreatMustDeliver ≤ delivered) :
    LossJudge.judge { best := some best, bestDelivered := some bestDelivered } loss delivered =
      (.congested true,
        { best := some (min best loss), bestDelivered := some (max bestDelivered delivered) }) := by
  simp [LossJudge.judge, LossJudge.lowered, LossJudge.improving, LossJudge.paying,
    not_le_of_gt high, improves, pays]

/-- Up to eighteen times the capacity, one retreat visibly lowers the loss. -/
theorem retreat_improves {previous : ℚ} (positive : 0 < capacity) (moving : 0 < previous)
    (near : previous ≤ 18 * capacity) :
    1 - capacity / (previous * retreat) < (1 - capacity / previous) * retreatMustImprove ∧
      1 - capacity / (previous * retreat) ≤ 1 - capacity / previous := by
  have share : 1 / 18 ≤ capacity / previous := by
    rw [le_div_iff₀ moving]
    linarith
  have scaled : capacity / (previous * retreat) = capacity / previous * (100 / 85) := by
    norm_num [retreat]
    field_simp
  rw [scaled]
  norm_num [retreatMustImprove]
  constructor <;> linarith

end Judging

section Windows

variable {capacity demand ceiling top rate : ℚ} {full : GlobalBrake}

theorem retreat_to {brake : GlobalBrake} {dispatchRate : ℚ}
    (basis : brake.globalLimit.getD dispatchRate = rate) (floor : 1 ≤ rate * retreat)
    (capped : rate * retreat ≤ brake.globalCeiling) :
    brake.retreatFrom dispatchRate = some { brake with
      globalLimit := some (rate * retreat), global := ⟨pacingInterval (rate * retreat)⟩ } := by
  have target : min (max (rate * retreat) minRateQps) brake.globalCeiling = rate * retreat := by
    have above : minRateQps ≤ rate * retreat := floor
    rw [max_eq_left above, min_eq_left capped]
  simp only [GlobalBrake.retreatFrom, basis, target]
  exact brake_set_rate _ (lt_of_lt_of_le one_pos floor)

theorem ease_to {brake : GlobalBrake} {limit : ℚ} (standing : brake.globalLimit = some limit)
    (moving : 0 < limit) (short : limit * growth < brake.globalCeiling) :
    brake.ease = some { brake with
      globalLimit := some (limit * growth), global := ⟨pacingInterval (limit * growth)⟩ } := by
  simp only [GlobalBrake.ease, standing, if_neg (not_le_of_gt short)]
  apply brake_set_rate
  norm_num [growth]
  exact moving

theorem congested_moves (congested : full.verdict.isCongested = true)
    (basis : full.globalLimit.getD full.dispatchRate = rate) (floor : 3 / 2 ≤ rate)
    (capped : rate ≤ full.globalCeiling) :
    full.judgeWindow = some { afterVerdict full with
      globalLimit := some (rate * retreat), global := ⟨pacingInterval (rate * retreat)⟩ } := by
  have above : 1 ≤ rate * retreat := by
    norm_num [retreat]
    linarith
  have below : rate * retreat ≤ full.globalCeiling := by
    norm_num [retreat]
    linarith
  exact (judge_window_congested congested).trans (retreat_to basis above below)

theorem lossy_window (room : 2 ≤ capacity) (lossy : capacity < 98 / 100 * rate)
    (bounded : rate ≤ top) (capped : rate ≤ full.globalCeiling)
    (basis : full.globalLimit.getD full.dispatchRate = rate) {converging : Bool}
    (judged : full.globalJudge.judge full.loss full.delivered = (.congested converging,
      { best := some (1 - capacity / rate), bestDelivered := some capacity })) :
    full.verdict = .congested converging ∧ ∃ after, full.judgeWindow = some after ∧
      Tracks capacity top after.globalLimit after.globalJudge := by
  have verdict : full.verdict = .congested converging := by rw [GlobalBrake.verdict, judged]
  have congested : full.verdict.isCongested = true := by
    rw [verdict]
    rfl
  refine ⟨verdict, _, congested_moves congested basis (by linarith) capped, ?_⟩
  simp only [afterVerdict, judged]
  exact .retreating rate lossy bounded

theorem clear_window (room : 2 ≤ capacity) {limit : ℚ} (standing : full.globalLimit = some limit)
    (near : 864 / 1000 * capacity < limit) (low : 98 / 100 * limit ≤ capacity)
    (capped : 13 / 10 * capacity ≤ full.globalCeiling) (quiet : full.loss ≤ lossThreshold)
    (judged : full.globalJudge.judge full.loss full.delivered = (.clear, {})) :
    full.verdict = .clear ∧ ∃ after, full.judgeWindow = some after ∧
      ∀ top, Tracks capacity top after.globalLimit after.globalJudge := by
  have verdict : full.verdict = .clear := by rw [GlobalBrake.verdict, judged]
  have kept : ¬ maxBaselineLoss < full.loss := by
    norm_num [lossThreshold] at quiet
    norm_num [maxBaselineLoss]
    linarith
  have short : limit * growth < full.globalCeiling := by
    norm_num [growth]
    linarith
  have calm : full.verdict.isCongested = false := by
    rw [verdict]
    rfl
  have moved := (judge_window_quiet calm).trans (if_neg kept)
  have eased := moved.trans (ease_to standing (by linarith) short)
  refine ⟨verdict, _, eased, ?_⟩
  intro top
  simp only [afterVerdict, judged]
  apply Tracks.eased
  · norm_num [growth]
    linarith
  · norm_num [growth, easedTop]
    linarith

theorem first_window (setting : Setting capacity demand ceiling)
    (kept : full.globalCeiling = ceiling) (free : full.globalLimit = none)
    (fresh : full.globalJudge = {})
    (loaded : Loaded capacity (min (effectiveLimit full) demand) full) :
    full.verdict = .congested false ∧ ∃ after, full.judgeWindow = some after ∧
      Tracks capacity demand after.globalLimit after.globalJudge := by
  rcases setting with ⟨room, busy, within, capped⟩
  have rate : min (effectiveLimit full) demand = demand := by
    rw [effectiveLimit, free, kept]
    exact min_eq_right capped
  rw [rate] at loaded
  have lossy : capacity < 98 / 100 * demand := by linarith
  have above : capacity ≤ demand := by linarith
  have share := overload_high (by linarith) lossy
  apply lossy_window room lossy le_rfl (by rwa [kept])
  · rw [free, loaded.dispatched]
    rfl
  · rw [fresh, loaded.lost, loaded.answered, share.1, judge_first share.2, min_eq_right above]

/-- What a window of a tracking loop may do: never a baseline, and from a clear
one on the loop stays below the eased top. -/
def Continues (capacity top : ℚ) (full : GlobalBrake) : Prop :=
  full.verdict ≠ .baseline ∧ ∃ after, full.judgeWindow = some after ∧
    Tracks capacity top after.globalLimit after.globalJudge ∧
    (full.verdict = .clear →
      (∀ limit, full.globalLimit = some limit → limit ≤ easedTop capacity) ∧
      Tracks capacity (easedTop capacity) after.globalLimit after.globalJudge)

theorem limit_in_force {limit : ℚ} (standing : full.globalLimit = some limit)
    (below : limit ≤ demand) : min (effectiveLimit full) demand = limit := by
  rw [effectiveLimit, standing]
  exact min_eq_left below

theorem eased_window (setting : Setting capacity demand ceiling)
    (kept : full.globalCeiling = ceiling) (eased : easedTop capacity ≤ top) {limit : ℚ}
    (standing : full.globalLimit = some limit) (above : 108 / 100 * capacity < limit)
    (below : limit ≤ easedTop capacity) (fresh : full.globalJudge = {})
    (loaded : Loaded capacity (min (effectiveLimit full) demand) full) :
    Continues capacity top full := by
  rcases setting with ⟨room, busy, within, capped⟩
  have close : limit ≤ 13 / 10 * capacity := by
    rw [easedTop] at below
    linarith
  rw [limit_in_force standing (by linarith)] at loaded
  -- one growth step above a clear window is above capacity again
  have high : capacity < 98 / 100 * limit := by linarith
  have reaches : capacity ≤ limit := by linarith
  have share := overload_high (by linarith) high
  have judged : full.globalJudge.judge full.loss full.delivered = (.congested false,
      { best := some (1 - capacity / limit), bestDelivered := some capacity }) := by
    rw [fresh, loaded.lost, loaded.answered, share.1, judge_first share.2, min_eq_right reaches]
  rcases lossy_window room high (le_trans below eased) (by linarith)
    (by rw [standing]; rfl) judged with ⟨verdict, after, moved, tracks⟩
  rw [Continues, verdict]
  exact ⟨by simp, after, moved, tracks, by simp⟩

theorem retreating_window (setting : Setting capacity demand ceiling)
    (kept : full.globalCeiling = ceiling) (most : top ≤ demand) {previous : ℚ}
    (standing : full.globalLimit = some (previous * retreat))
    (lossy : capacity < 98 / 100 * previous) (bounded : previous ≤ top)
    (open_ : full.globalJudge =
      { best := some (1 - capacity / previous), bestDelivered := some capacity })
    (loaded : Loaded capacity (min (effectiveLimit full) demand) full) :
    Continues capacity top full := by
  rcases setting with ⟨room, busy, within, capped⟩
  have moving : 0 < previous := by linarith
  have step : previous * retreat = 85 / 100 * previous := by
    norm_num [retreat]
    ring
  rw [limit_in_force standing (by linarith)] at loaded
  -- either this retreat brought the loss under the threshold, or it showed an improvement
  by_cases low : 98 / 100 * (previous * retreat) ≤ capacity
  · have quiet : full.loss ≤ lossThreshold := by
      rw [loaded.lost]
      exact overload_low (by linarith) low
    rcases clear_window room standing (by linarith) low (by linarith) quiet
      (by rw [open_]; exact judge_low quiet _ _) with ⟨verdict, after, moved, tracks⟩
    rw [Continues, verdict]
    refine ⟨by simp, after, moved, tracks top, fun _ => ⟨?_, tracks _⟩⟩
    intro limit same
    rw [standing] at same
    cases same
    rw [easedTop]
    linarith
  · have high := lt_of_not_ge low
    have positive : 0 < capacity := by linarith
    have reaches : capacity ≤ previous * retreat := by linarith
    have shrunk : previous * retreat ≤ top := by linarith
    have share := overload_high (positive.trans_le reaches) high
    have improves := retreat_improves positive moving (by linarith)
    -- the path still delivers its capacity, so paying never fails here
    have judged : full.globalJudge.judge full.loss full.delivered = (.congested true,
        { best := some (1 - capacity / (previous * retreat)),
          bestDelivered := some capacity }) := by
      rw [open_, loaded.lost, loaded.answered, share.1, min_eq_right reaches,
        judge_improves share.2 improves.1 (by norm_num [retreatMustDeliver]; linarith),
        min_eq_right improves.2, max_self]
    rcases lossy_window room high shrunk (by linarith) (by rw [standing]; rfl) judged with
      ⟨verdict, after, moved, tracks⟩
    rw [Continues, verdict]
    exact ⟨by simp, after, moved, tracks, by simp⟩

theorem tracked_window (setting : Setting capacity demand ceiling)
    (kept : full.globalCeiling = ceiling) (eased : easedTop capacity ≤ top) (most : top ≤ demand)
    (tracks : Tracks capacity top full.globalLimit full.globalJudge)
    (loaded : Loaded capacity (min (effectiveLimit full) demand) full) :
    Continues capacity top full := by
  generalize standing : full.globalLimit = limit at tracks
  generalize remembered : full.globalJudge = judge at tracks
  cases tracks with
  | retreating previous lossy bounded =>
      exact retreating_window setting kept most standing lossy bounded remembered loaded
  | eased limit above below =>
      exact eased_window setting kept eased standing above below remembered loaded

theorem tracks_limit {limit : Option ℚ} {judge : LossJudge} (positive : 0 < capacity)
    (tracks : Tracks capacity top limit judge) :
    ∃ value, limit = some value ∧ 86 / 100 * capacity ≤ value ∧
      value ≤ max (85 / 100 * top) (easedTop capacity) := by
  cases tracks with
  | retreating previous lossy bounded =>
      refine ⟨_, rfl, ?_, le_max_of_le_left ?_⟩
      · norm_num [retreat]
        linarith
      · norm_num [retreat]
        linarith
  | eased limit above below => exact ⟨_, rfl, by linarith, le_max_of_le_right below⟩

end Windows

section Runs

variable {n : ℕ} {capacity demand ceiling : ℚ}
variable {inputs : ℕ → TickInput n} {states : ℕ → Control n}

def ClosesWindow (control : Control n) (input : TickInput n) : Prop :=
  100 ≤ (fullWindow control input).globalWindow.attempted

/-- Every window the run judges was sent into a path of this capacity. -/
def ClosedLoop (capacity demand : ℚ) (inputs : ℕ → TickInput n) (states : ℕ → Control n) : Prop :=
  ∀ time, ClosesWindow (states time) (inputs time) →
    Loaded capacity (min (effectiveLimit (states time).controller.toGlobalBrake) demand)
      (fullWindow (states time) (inputs time))

def Following (capacity top : ℚ) (control : Control n) : Prop :=
  Tracks capacity top control.controller.globalLimit control.controller.globalJudge

theorem tick_adjusts {control after : Control n} {input : TickInput n}
    (ticked : control.tick input = some after) :
    (if (fullWindow control input).globalWindow.attempted < 100 then some (fullWindow control input)
      else (fullWindow control input).judgeWindow) = some after.controller.toGlobalBrake :=
  Control.tick_global ticked

theorem tick_open {control after : Control n} {input : TickInput n}
    (ticked : control.tick input = some after) (few : ¬ ClosesWindow control input) :
    after.controller.toGlobalBrake = fullWindow control input := by
  have stepped := tick_adjusts ticked
  rw [if_pos (lt_of_not_ge few)] at stepped
  exact (Option.some.inj stepped).symm

theorem tick_closed {control after : Control n} {input : TickInput n}
    (ticked : control.tick input = some after) (enough : ClosesWindow control input) :
    (fullWindow control input).judgeWindow = some after.controller.toGlobalBrake := by
  have stepped := tick_adjusts ticked
  rwa [if_neg (not_lt_of_ge enough)] at stepped

theorem following_tick (setting : Setting capacity demand ceiling)
    {control after : Control n} {input : TickInput n} {top : ℚ}
    (kept : control.controller.globalCeiling = ceiling)
    (eased : easedTop capacity ≤ top) (most : top ≤ demand)
    (loaded : ClosesWindow control input →
      Loaded capacity (min (effectiveLimit control.controller.toGlobalBrake) demand)
        (fullWindow control input))
    (following : Following capacity top control) (ticked : control.tick input = some after) :
    Following capacity top after ∧
      (ClosesWindow control input → Continues capacity top (fullWindow control input)) := by
  by_cases enough : ClosesWindow control input
  · have continues : Continues capacity top (fullWindow control input) :=
      tracked_window setting kept eased most following (loaded enough)
    rcases continues with ⟨fine, next, moved, tracks, cleared⟩
    rw [tick_closed ticked enough] at moved
    cases moved
    exact ⟨tracks, fun _ => ⟨fine, _, tick_closed ticked enough, tracks, cleared⟩⟩
  · have unjudged := tick_open ticked enough
    refine ⟨?_, fun bad => absurd bad enough⟩
    rw [Following, unjudged]
    exact following

theorem setting_tops (setting : Setting capacity demand ceiling) :
    0 < capacity ∧ easedTop capacity ≤ demand := by
  rcases setting with ⟨room, busy, within, capped⟩
  rw [easedTop]
  constructor <;> linarith

theorem ceiling_kept (run : ControlRun ceiling inputs states) (time : ℕ) :
    (states time).controller.globalCeiling = ceiling :=
  (control_run_sound run time).1.ceiling_kept

def Unjudged (control : Control n) : Prop :=
  control.controller.globalLimit = none ∧ control.controller.globalJudge = {}

theorem unjudged_window (setting : Setting capacity demand ceiling)
    (run : ControlRun ceiling inputs states) (loop : ClosedLoop capacity demand inputs states)
    {time : ℕ} (unjudged : Unjudged (states time))
    (enough : ClosesWindow (states time) (inputs time)) :
    (fullWindow (states time) (inputs time)).verdict = .congested false ∧
      Following capacity demand (states (time + 1)) := by
  have first : (fullWindow (states time) (inputs time)).verdict = .congested false ∧
      ∃ after, (fullWindow (states time) (inputs time)).judgeWindow = some after ∧
        Tracks capacity demand after.globalLimit after.globalJudge :=
    first_window setting (ceiling_kept run time) unjudged.1 unjudged.2 (loop time enough)
  rcases first with ⟨verdict, after, moved, tracks⟩
  rw [tick_closed (run.ticks time) enough] at moved
  cases moved
  exact ⟨verdict, tracks⟩

theorem following_on (setting : Setting capacity demand ceiling)
    (run : ControlRun ceiling inputs states) (loop : ClosedLoop capacity demand inputs states)
    {time : ℕ} (following : Following capacity demand (states time)) :
    Following capacity demand (states (time + 1)) ∧
      (ClosesWindow (states time) (inputs time) →
        Continues capacity demand (fullWindow (states time) (inputs time))) :=
  following_tick setting (ceiling_kept run time) (setting_tops setting).2 le_rfl (loop time)
    following (run.ticks time)

theorem run_phase (setting : Setting capacity demand ceiling)
    (run : ControlRun ceiling inputs states) (loop : ClosedLoop capacity demand inputs states)
    (time : ℕ) : Unjudged (states time) ∨ Following capacity demand (states time) := by
  induction time with
  | zero =>
      left
      rw [Unjudged, (Control.new_some run.fresh).2.1]
      exact ⟨rfl, rfl⟩
  | succ time ih =>
      rcases ih with unjudged | following
      · by_cases enough : ClosesWindow (states time) (inputs time)
        · exact Or.inr (unjudged_window setting run loop unjudged enough).2
        · left
          rw [Unjudged, tick_open (run.ticks time) enough]
          exact unjudged
      · exact Or.inr (following_on setting run loop following).1

theorem run_follows (setting : Setting capacity demand ceiling)
    (run : ControlRun ceiling inputs states) (loop : ClosedLoop capacity demand inputs states)
    {top : ℚ} (eased : easedTop capacity ≤ top) (most : top ≤ demand) {first : ℕ}
    (start : Following capacity top (states first)) (time : ℕ) (order : first ≤ time) :
    Following capacity top (states time) := by
  let loading : Control n → TickInput n → Prop := fun control input =>
    control.controller.globalCeiling = ceiling ∧ (ClosesWindow control input →
      Loaded capacity (min (effectiveLimit control.controller.toGlobalBrake) demand)
        (fullWindow control input))
  apply run_persists (Following capacity top) loading _ run.ticks first start time order
  · intro time _ _
    exact ⟨ceiling_kept run time, loop time⟩
  · rintro before input after following ⟨kept, loaded⟩ ticked
    exact (following_tick setting kept eased most loaded following ticked).1

theorem window_continues (setting : Setting capacity demand ceiling)
    (run : ControlRun ceiling inputs states) (loop : ClosedLoop capacity demand inputs states)
    (time : ℕ) (enough : ClosesWindow (states time) (inputs time)) :
    (fullWindow (states time) (inputs time)).verdict = .congested false ∨
      Following capacity demand (states time) ∧
        Continues capacity demand (fullWindow (states time) (inputs time)) := by
  rcases run_phase setting run loop time with unjudged | following
  · exact Or.inl (unjudged_window setting run loop unjudged enough).1
  · exact Or.inr ⟨following, (following_on setting run loop following).2 enough⟩

/-- Once it has retreated the loop keeps a limit. -/
theorem following_limit (setting : Setting capacity demand ceiling) {control : Control n}
    (following : Following capacity demand control) :
    ∃ limit, control.controller.globalLimit = some limit ∧ 86 / 100 * capacity ≤ limit ∧
      limit ≤ demand := by
  rcases setting_tops setting with ⟨positive, most⟩
  rcases tracks_limit positive following with ⟨limit, standing, above, below⟩
  refine ⟨limit, standing, above, le_trans below (max_le ?_ most)⟩
  linarith [setting.busy]

theorem limit_set (setting : Setting capacity demand ceiling)
    (run : ControlRun ceiling inputs states) (loop : ClosedLoop capacity demand inputs states)
    {time : ℕ} (enough : ClosesWindow (states time) (inputs time)) :
    Following capacity demand (states (time + 1)) := by
  rcases run_phase setting run loop time with unjudged | following
  · exact (unjudged_window setting run loop unjudged enough).2
  · exact (following_on setting run loop following).1

section Descent

variable (setting : Setting capacity demand ceiling) (run : ControlRun ceiling inputs states)
variable (loop : ClosedLoop capacity demand inputs states)
variable (never : ∀ time, ClosesWindow (states time) (inputs time) →
  (fullWindow (states time) (inputs time)).verdict ≠ .clear)

include setting run loop never

/-- While no window is clear the limit only falls, and every window takes it a retreat down. -/
theorem unclear_tick {time : ℕ} (following : Following capacity demand (states time)) {limit : ℚ}
    (standing : (states time).controller.globalLimit = some limit) :
    ∃ next, (states (time + 1)).controller.globalLimit = some next ∧ next ≤ limit ∧
      (ClosesWindow (states time) (inputs time) → next = limit * retreat) := by
  rcases following_limit setting following with ⟨value, same, above, below⟩
  rw [standing] at same
  cases same
  by_cases enough : ClosesWindow (states time) (inputs time)
  · have continues := (following_on setting run loop following).2 enough
    have congested : (fullWindow (states time) (inputs time)).verdict.isCongested = true := by
      cases verdict : (fullWindow (states time) (inputs time)).verdict with
      | congested converging => rfl
      | clear => exact absurd verdict (never time enough)
      | baseline => exact absurd verdict continues.1
    have kept : (fullWindow (states time) (inputs time)).globalLimit = some limit := standing
    have basis : (fullWindow (states time) (inputs time)).globalLimit.getD
        (fullWindow (states time) (inputs time)).dispatchRate = limit := by
      rw [kept, Option.getD_some]
    have capped : limit ≤ (fullWindow (states time) (inputs time)).globalCeiling :=
      (below.trans setting.capped).trans_eq (ceiling_kept run time).symm
    have moved := congested_moves congested basis (by linarith [setting.room]) capped
    rw [tick_closed (run.ticks time) enough] at moved
    refine ⟨limit * retreat, ?_, ?_, fun _ => rfl⟩
    · rw [Option.some.inj moved]
    · norm_num [retreat]
      linarith [setting.room]
  · refine ⟨limit, ?_, le_rfl, fun closes => absurd closes enough⟩
    rw [tick_open (run.ticks time) enough]
    exact standing

theorem unclear_falls {first : ℕ} (start : Following capacity demand (states first)) {limit : ℚ}
    (standing : (states first).controller.globalLimit = some limit) (time : ℕ)
    (order : first ≤ time) :
    ∃ next, (states time).controller.globalLimit = some next ∧ next ≤ limit := by
  induction time, order using Nat.le_induction with
  | base => exact ⟨limit, standing, le_rfl⟩
  | succ time order ih =>
      rcases ih with ⟨middle, kept, below⟩
      have following : Following capacity demand (states time) :=
        run_follows setting run loop (setting_tops setting).2 le_rfl start time order
      rcases unclear_tick setting run loop never following kept with ⟨next, moved, falls, _⟩
      exact ⟨next, moved, falls.trans below⟩

/-- One window after another, the limit would sink below every bound. -/
theorem unclear_sinks
    (closing : ∀ time, ∃ later, time ≤ later ∧ ClosesWindow (states later) (inputs later))
    {first : ℕ} (start : Following capacity demand (states first)) {limit : ℚ}
    (standing : (states first).controller.globalLimit = some limit) (windows : ℕ) :
    ∃ time next, first ≤ time ∧ (states time).controller.globalLimit = some next ∧
      next ≤ limit * retreat ^ windows := by
  induction windows with
  | zero => exact ⟨first, limit, le_rfl, standing, by simp⟩
  | succ windows ih =>
      rcases ih with ⟨time, reached, order, kept, below⟩
      rcases closing time with ⟨later, after, closes⟩
      have following : ∀ moment, first ≤ moment → Following capacity demand (states moment) :=
        run_follows setting run loop (setting_tops setting).2 le_rfl start
      rcases unclear_falls setting run loop never (following time order) kept later after with
        ⟨middle, held, falls⟩
      rcases unclear_tick setting run loop never (following later (order.trans after)) held with
        ⟨next, moved, _, steps⟩
      refine ⟨later + 1, next, order.trans (after.trans (Nat.le_succ later)), moved, ?_⟩
      rw [steps closes, pow_succ, ← mul_assoc]
      apply mul_le_mul_of_nonneg_right (falls.trans below)
      norm_num [retreat]

end Descent

/-- When windows keep closing, one of them is clear: the limit cannot retreat below the
capacity for ever. -/
theorem clear_window_reached (setting : Setting capacity demand ceiling)
    (run : ControlRun ceiling inputs states) (loop : ClosedLoop capacity demand inputs states)
    (closing : ∀ time, ∃ later, time ≤ later ∧ ClosesWindow (states later) (inputs later)) :
    ∃ time, ClosesWindow (states time) (inputs time) ∧
      (fullWindow (states time) (inputs time)).verdict = .clear := by
  by_contra unreached
  have never : ∀ time, ClosesWindow (states time) (inputs time) →
      (fullWindow (states time) (inputs time)).verdict ≠ .clear :=
    fun time closes clear => unreached ⟨time, closes, clear⟩
  rcases closing 0 with ⟨opening, _, closes⟩
  have start := limit_set setting run loop closes
  rcases following_limit setting start with ⟨limit, standing, above, _⟩
  have positive := (setting_tops setting).1
  have floor : 0 < 86 / 100 * capacity / limit := by
    apply div_pos <;> linarith
  rcases exists_pow_lt_of_lt_one floor (by norm_num [retreat] : retreat < 1) with ⟨windows, small⟩
  rcases unclear_sinks setting run loop never closing start standing windows with
    ⟨time, next, order, held, below⟩
  rcases following_limit setting (run_follows setting run loop (setting_tops setting).2 le_rfl
    start time order) with ⟨value, same, bound, _⟩
  rw [held] at same
  cases same
  rw [lt_div_iff₀ (by linarith)] at small
  linarith

/-- In closed loop with a path of capacity K the judge never mistakes the loss for
a baseline, the limit never falls below 0.86 K, and from a clear window on it
stays between 0.86 K and 1.28 K. The first window sets a limit, and when windows
keep closing a clear one is reached. -/
theorem limit_converges_to_capacity (setting : Setting capacity demand ceiling)
    (run : ControlRun ceiling inputs states) (loop : ClosedLoop capacity demand inputs states) :
    (∀ time, ClosesWindow (states time) (inputs time) →
      (fullWindow (states time) (inputs time)).verdict ≠ .baseline) ∧
    (∀ time limit, (states time).controller.globalLimit = some limit →
      86 / 100 * capacity ≤ limit) ∧
    (∀ first, ClosesWindow (states first) (inputs first) →
      (fullWindow (states first) (inputs first)).verdict = .clear →
      ∀ time, first ≤ time → ∃ limit, (states time).controller.globalLimit = some limit ∧
        86 / 100 * capacity ≤ limit ∧ limit ≤ 128 / 100 * capacity) ∧
    (∀ first, ClosesWindow (states first) (inputs first) → ∀ time, first < time →
      ∃ limit, (states time).controller.globalLimit = some limit) ∧
    ((∀ time, ∃ later, time ≤ later ∧ ClosesWindow (states later) (inputs later)) →
      ∃ time, ClosesWindow (states time) (inputs time) ∧
        (fullWindow (states time) (inputs time)).verdict = .clear) := by
  rcases setting_tops setting with ⟨positive, most⟩
  refine ⟨?_, ?_, ?_, ?_, clear_window_reached setting run loop⟩
  · intro time enough
    rcases window_continues setting run loop time enough with first | ⟨_, fine, _⟩
    · rw [first]
      simp
    · exact fine
  · intro time limit standing
    rcases run_phase setting run loop time with unjudged | following
    · rw [unjudged.1] at standing
      cases standing
    · rcases tracks_limit positive following with ⟨value, same, above, _⟩
      rw [standing] at same
      cases same
      exact above
  · intro first enough clear time order
    rcases window_continues setting run loop first enough with congested | ⟨following, continues⟩
    · rw [congested] at clear
      cases clear
    · rcases continues with ⟨_, after, moved, _, cleared⟩
      rcases cleared clear with ⟨below, tracks⟩
      rcases Nat.eq_or_lt_of_le order with rfl | later
      · rcases tracks_limit positive following with ⟨value, same, above, _⟩
        have capped := below value same
        rw [easedTop] at capped
        exact ⟨value, same, above, by linarith⟩
      · rw [tick_closed (run.ticks first) enough] at moved
        cases moved
        have later := run_follows setting run loop le_rfl most tracks time later
        rcases tracks_limit positive later with ⟨value, same, above, capped⟩
        refine ⟨value, same, above, le_trans capped ?_⟩
        rw [easedTop]
        apply max_le <;> linarith
  · intro first enough time order
    have following : Following capacity demand (states time) :=
      run_follows setting run loop most le_rfl (limit_set setting run loop enough) time order
    rcases following_limit setting following with ⟨limit, standing, _⟩
    exact ⟨limit, standing⟩

end Runs

section Existence

variable {capacity demand ceiling : ℚ}

/-- Whole seconds in which both the rate and the capacity come to whole counts. -/
def windowSeconds (capacity rate : ℚ) : ℕ := rate.den * capacity.den * 100

def windowSent (capacity rate : ℚ) : ℕ := rate.num.toNat * capacity.den * 100

def windowAnswered (capacity rate : ℚ) : ℕ :=
  if rate ≤ capacity then windowSent capacity rate else capacity.num.toNat * rate.den * 100

/-- A tick in which one resolver is sent exactly this rate and the path answers up
to its capacity. -/
def loadedInput (capacity rate : ℚ) (control : Control 1) : TickInput 1 where
  elapsedNs := windowSeconds capacity rate * 10 ^ 9
  now := 0
  resolvers i :=
    { resolver := .v4 ⟨127, 0, 0, 1⟩ 53
      requestTimeoutNs := 10 ^ 9
      purgatoryThreshold := 0
      purgatorySentenceNs := 0
      inflight := 1
      limiter := control.limiters i
      attempted := (control.controller.perResolver i).attempted + windowSent capacity rate }
  outcomes :=
    { completed := control.controller.previousOutcomes.attempted + windowSent capacity rate
      failed := control.controller.previousOutcomes.lost +
        (windowSent capacity rate - windowAnswered capacity rate) }
  waiting := 0

theorem overload_share {rate seconds : ℚ} (moving : 0 < rate) (nonzero : seconds ≠ 0) :
    (rate * seconds - min rate capacity * seconds) / (rate * seconds) = overload capacity rate := by
  have share : (rate * seconds - min rate capacity * seconds) / (rate * seconds) =
      1 - min rate capacity / rate := by
    field_simp
  rw [share, overload]
  rcases le_total rate capacity with low | high
  · have whole : 1 ≤ capacity / rate := by rwa [le_div_iff₀ moving, one_mul]
    rw [min_eq_left low, div_self moving.ne', max_eq_left (by linarith), sub_self]
  · have part : capacity / rate ≤ 1 := by rwa [div_le_iff₀ moving, one_mul]
    rw [min_eq_right high, max_eq_right (by linarith)]

def Idle (control : Control 1) : Prop :=
  control.controller.globalWindow = {} ∧ control.controller.globalWindowDispatched = 0 ∧
    control.controller.globalWindowSeconds = 0

theorem whole_count {value : ℚ} (nonneg : 0 ≤ value) (scale : ℕ) :
    ((value.num.toNat * scale : ℕ) : ℚ) = value * (value.den * scale) := by
  have numerator : ((value.num.toNat : ℕ) : ℚ) = value.num := by
    exact_mod_cast Int.toNat_of_nonneg (Rat.num_nonneg.mpr nonneg)
  rw [Nat.cast_mul, numerator, ← mul_assoc, Rat.mul_den_eq_num]

section Load

variable {rate : ℚ}

theorem window_seconds_pos (capacity rate : ℚ) : (1 : ℚ) ≤ windowSeconds capacity rate := by
  have whole : 1 ≤ rate.den * capacity.den := Nat.mul_pos rate.den_pos capacity.den_pos
  have seconds : 1 ≤ windowSeconds capacity rate := by
    rw [windowSeconds]
    omega
  exact_mod_cast seconds

variable (positive : 0 < capacity) (moving : 0 < rate)

include moving

theorem window_sent : (windowSent capacity rate : ℚ) = rate * windowSeconds capacity rate := by
  rw [windowSent, windowSeconds, mul_assoc, whole_count moving.le, mul_assoc]
  push_cast
  ring

theorem window_sent_enough : 100 ≤ windowSent capacity rate := by
  have numerator : 1 ≤ rate.num.toNat := by
    have := Rat.num_pos.mpr moving
    omega
  have whole : 1 ≤ rate.num.toNat * capacity.den := Nat.mul_pos numerator capacity.den_pos
  rw [windowSent]
  omega

include positive

theorem window_answered :
    (windowAnswered capacity rate : ℚ) = min rate capacity * windowSeconds capacity rate := by
  rw [windowAnswered]
  split
  · rename_i low
    rw [min_eq_left low, window_sent moving]
  · rename_i high
    rw [min_eq_right (le_of_not_ge high), mul_assoc, whole_count positive.le, windowSeconds]
    push_cast
    ring

theorem window_answered_le : windowAnswered capacity rate ≤ windowSent capacity rate := by
  have cast : (windowAnswered capacity rate : ℚ) ≤ windowSent capacity rate := by
    rw [window_answered positive moving, window_sent moving]
    exact mul_le_mul_of_nonneg_right (min_le_left _ _) (Nat.cast_nonneg _)
  exact_mod_cast cast

theorem loaded_input {control : Control 1} (idle : Idle control) :
    ClosesWindow control (loadedInput capacity rate control) ∧
      Loaded capacity rate (fullWindow control (loadedInput capacity rate control)) := by
  rcases idle with ⟨empty, noDispatch, zero⟩
  let full := fullWindow control (loadedInput capacity rate control)
  have long := window_seconds_pos capacity rate
  have elapsed : (loadedInput capacity rate control).seconds = windowSeconds capacity rate := by
    have whole : asSecs (windowSeconds capacity rate * 10 ^ 9) = windowSeconds capacity rate := by
      norm_num [asSecs]
    rw [TickInput.seconds, loadedInput, whole]
    apply max_eq_left
    norm_num [minSeconds]
    linarith
  have sent : (control.tickTotals (loadedInput capacity rate control)).attempted =
      windowSent capacity rate := by
    simp [Control.tickTotals, List.finRange_succ, Control.resolverCount, Control.Totals.add, observe,
      loadedInput, Control.lane]
  have attempted : full.globalWindow.attempted = windowSent capacity rate := by
    simp [full, fullWindow, GlobalBrake.accumulate, empty, loadedInput]
  have lost : full.globalWindow.lost =
      windowSent capacity rate - windowAnswered capacity rate := by
    simp [full, fullWindow, GlobalBrake.accumulate, empty, loadedInput]
  have dispatched : full.globalWindowDispatched = windowSent capacity rate := by
    simp [full, fullWindow, GlobalBrake.accumulate, noDispatch, sent]
  have seconds : max full.globalWindowSeconds minSeconds = windowSeconds capacity rate := by
    have open_ : full.globalWindowSeconds = windowSeconds capacity rate := by
      simp [full, fullWindow, GlobalBrake.accumulate, zero, elapsed]
    rw [open_]
    apply max_eq_left
    norm_num [minSeconds]
    linarith
  have nonzero : (windowSeconds capacity rate : ℚ) ≠ 0 := by linarith
  refine ⟨?_, ?_, ?_, ?_⟩
  · change 100 ≤ full.globalWindow.attempted
    rw [attempted]
    exact window_sent_enough moving
  · change full.dispatchRate = rate
    rw [GlobalBrake.dispatchRate, dispatched, seconds, window_sent moving, mul_div_assoc,
      div_self nonzero, mul_one]
  · change full.loss = overload capacity rate
    rw [GlobalBrake.loss, attempted, lost, Nat.cast_sub (window_answered_le positive moving),
      window_answered positive moving, window_sent moving, overload_share moving nonzero]
  · change full.delivered = min rate capacity
    rw [GlobalBrake.delivered, attempted, lost, seconds,
      Nat.sub_sub_self (window_answered_le positive moving), window_answered positive moving,
      mul_div_assoc, div_self nonzero, mul_one]

end Load

theorem judge_window_idle {full after : GlobalBrake} (judged : full.judgeWindow = some after) :
    after.globalWindow = {} ∧ after.globalWindowDispatched = 0 ∧ after.globalWindowSeconds = 0 := by
  rcases judge_window_moves judged with ⟨limit, global, rfl⟩
  exact ⟨rfl, rfl, rfl⟩

/-- For every setting there is a run in closed loop, judging a window every tick. -/
theorem closed_loop_exists (setting : Setting capacity demand ceiling) :
    ∃ (inputs : ℕ → TickInput 1) (states : ℕ → Control 1),
      ControlRun ceiling inputs states ∧ ClosedLoop capacity demand inputs states ∧
      ∀ time, ClosesWindow (states time) (inputs time) := by
  have positive : 0 < capacity := (setting_tops setting).1
  have loading : 0 < demand := by linarith [setting.busy]
  have ceilingPos : 0 < ceiling := by linarith [setting.capped]
  rcases new_exists ceilingPos with ⟨start, fresh⟩
  let admitted : Control 1 → TickInput 1 → Prop := fun control input =>
    ClosesWindow control input ∧
      Loaded capacity (min (effectiveLimit control.controller.toGlobalBrake) demand)
        (fullWindow control input)
  have progress : ∀ control, Sound ceiling control ∧ Idle control →
      ∃ input after, admitted control input ∧ control.tick input = some after ∧
        Sound ceiling after ∧ Idle after := by
    rintro control ⟨sound, idle⟩
    have moving : 0 < min (effectiveLimit control.controller.toGlobalBrake) demand := by
      apply lt_min _ loading
      rw [effectiveLimit]
      cases standing : control.controller.globalLimit with
      | none => simpa [sound.1.ceiling_kept] using ceilingPos
      | some limit =>
          exact lt_of_lt_of_le (floor_pos ceilingPos) (sound.1.limited limit standing).1
    have load := loaded_input positive moving idle
    rcases sound_tick ceilingPos control _ sound with ⟨after, ticked, kept⟩
    exact ⟨_, after, load, ticked, kept, judge_window_idle (tick_closed ticked load.1)⟩
  have begun : Sound ceiling start ∧ Idle start := by
    refine ⟨(sound_fresh fresh).2, ?_⟩
    rw [Idle, (Control.new_some fresh).2.1]
    exact ⟨rfl, rfl, rfl⟩
  rcases closed_run_exists _ admitted progress start begun with ⟨inputs, states, first, run, along⟩
  exact ⟨inputs, states, ⟨by rw [first]; exact fresh, run⟩, fun time _ => (along time).2,
    fun time => (along time).1⟩

/-- Every tick of this loop closes a window: the first sets the limit, and from some clear
window on it stays within bounds. -/
theorem limit_converges_to_capacity_ten :
    ∃ (inputs : ℕ → TickInput 1) (states : ℕ → Control 1),
      ControlRun 100 inputs states ∧ ClosedLoop 10 50 inputs states ∧
      (∀ time, (fullWindow (states time) (inputs time)).verdict ≠ .baseline) ∧
      (∃ limit, (states 1).controller.globalLimit = some limit) ∧
      ∃ first, (fullWindow (states first) (inputs first)).verdict = .clear ∧
        ∀ time, first ≤ time → ∃ limit, (states time).controller.globalLimit = some limit ∧
          86 / 100 * 10 ≤ limit ∧ limit ≤ 128 / 100 * 10 := by
  have setting : Setting 10 50 100 := ⟨by norm_num, by norm_num, by norm_num, by norm_num⟩
  rcases closed_loop_exists setting with ⟨inputs, states, run, loop, full⟩
  rcases limit_converges_to_capacity setting run loop with ⟨fine, _, bounded, sets, clears⟩
  rcases clears (fun time => ⟨time, le_rfl, full time⟩) with ⟨first, closes, clear⟩
  refine ⟨inputs, states, run, loop, fun time => fine time (full time), ?_, first, clear, ?_⟩
  · exact sets 0 (full 0) 1 Nat.zero_lt_one
  · exact bounded first closes clear

end Existence

end BlastDns.CapacityLoop
