import BlastDns.BrakeTick
import Mathlib.Algebra.Order.Ring.WithTop

/-!
Which limits the attempt brake can ever set. Every limit outside a probe comes
from a retreat, or from growth of one that does, and a retreat is taken only
against a recorded sample. So a bound on limits holds in every run as soon as
it is closed upward and every retreat the samples can justify meets it.
-/

namespace BlastDns.AttemptPacing

open Brake BrakeTick Runs

/-- Limits in force outside a probe and limits a probe will restore are allowed,
and every sample on record is credible. -/
structure Calibrated (allowed : ℚ → Prop) (credible : Sample → Prop) (brake : AttemptBrake) :
    Prop where
  limit : brake.probe = none → ∀ limit, brake.limit = some limit → allowed limit
  restore : ∀ probe, brake.probe = some probe → ∀ limit, probe.restore = some limit → allowed limit
  history : ∀ sample ∈ brake.history, credible sample

def windowSample (full : AttemptBrake) (now : ℕ) : Sample where
  atNs := now
  rate := judgedRate full
  loss := windowLoss full
  delivered := windowDelivered full

structure Justified (allowed : ℚ → Prop) (credible : Sample → Prop) (full : AttemptBrake)
    (now : ℕ) : Prop where
  sample : credible (windowSample full now)
  retreat : full.probe = none → ∀ sample, credible sample →
    sample.rate ≤ judgedRate full * attemptReferenceBelow →
    sample.loss + attemptLossThreshold < windowLoss full → allowed (judgedRate full * retreat)

section Steps

variable {allowed : ℚ → Prop} {credible : Sample → Prop} {brake : AttemptBrake}

/-- Closed upward, and no bound for a rate that is not positive. -/
structure Bound (allowed : ℚ → Prop) : Prop where
  upward : ∀ low high, allowed low → low ≤ high → allowed high
  positive : ∀ limit, allowed limit → 0 < limit

theorem recorded_credible (history : ∀ sample ∈ brake.history, credible sample) {now : ℕ}
    {rate loss delivered : ℚ}
    (fresh : credible { atNs := now, rate := rate, loss := loss, delivered := delivered }) :
    ∀ sample ∈ (brake.record now rate loss delivered).history, credible sample := by
  intro sample member
  rw [record_history] at member
  rcases List.mem_append.mp ((List.dropWhile_suffix _).subset member) with old | new
  · exact history sample old
  · rw [List.mem_singleton.mp new]
    exact fresh

theorem allowed_floored (bound : Bound allowed) {limit : Option ℚ}
    (given : ∀ rate, limit = some rate → allowed rate) :
    ∀ rate, (limit.map fun rate => max rate attemptMinRate) = some rate → allowed rate := by
  intro rate same
  rcases Option.map_eq_some_iff.mp same with ⟨asked, known, rfl⟩
  exact bound.upward asked _ (given asked known) (le_max_left _ _)

theorem calibrated_set_limit (bound : Bound allowed) (calibrated : Calibrated allowed credible brake)
    {target : ℚ} (fits : allowed target) :
    Calibrated allowed credible (brake.setLimit (some target)) := by
  refine ⟨fun _ => ?_, calibrated.restore, calibrated.history⟩
  rw [set_limit_limit]
  apply allowed_floored bound
  intro rate same
  cases same
  exact fits

theorem calibrated_act (bound : Bound allowed) {full : AttemptBrake} {now : ℕ}
    (calibrated : Calibrated allowed credible full) (free : full.probe = none)
    (justified : Justified allowed credible full now) :
    Calibrated allowed credible ((reopened full).act now (judgedRate full) (windowLoss full)
      (windowDelivered full)) := by
  have history : ∀ sample ∈ ((reopened full).record now (judgedRate full) (windowLoss full)
      (windowDelivered full)).history, credible sample :=
    recorded_credible calibrated.history justified.sample
  have standing := calibrated.limit free
  have stopped : ∀ probe, full.probe ≠ some probe := by simp [free]
  have decides : ∀ window, Calibrated allowed credible (decided (reopened full) now
      (judgedRate full) (windowLoss full) (windowDelivered full) window) := fun _ =>
    ⟨fun _ => standing, fun probe running => absurd running (stopped probe), history⟩
  rcases act_cases (reopened full) now (judgedRate full) (windowLoss full) (windowDelivered full)
    with ⟨_, same⟩ | ⟨congested, same | same⟩ | ⟨_, window, ⟨_, same⟩ | ⟨limit, known, same⟩⟩ <;>
    rw [same]
  · -- a probe starts, with the standing limit to restore
    refine ⟨by simp [AttemptBrake.setLimit], ?_, history⟩
    intro probe running
    cases running
    exact standing
  · exact decides _
  · apply calibrated_set_limit bound (decides _)
    rcases congested_reference _ congested with ⟨sample, member, below, lossier⟩
    exact justified.retreat free sample (history sample member) below lossier
  · exact decides _
  · apply calibrated_set_limit bound (decides _)
    have old := standing limit known
    apply bound.upward limit _ old
    have moving := bound.positive limit old
    norm_num [attemptGrowth]
    linarith

theorem calibrated_close (bound : Bound allowed) {full : AttemptBrake} {now : ℕ}
    (calibrated : Calibrated allowed credible full)
    (justified : full.settling = false → Justified allowed credible full now) :
    Calibrated allowed credible (full.closeWindow now) := by
  rcases close_window_cases full now with ⟨_, same⟩ | ⟨settled, outcome⟩
  · rw [same]
    exact ⟨calibrated.limit, calibrated.restore, calibrated.history⟩
  · have cause := justified settled
    rcases outcome with ⟨probe, running, same⟩ | ⟨free, limited, _, same⟩ | ⟨free, _, same⟩ <;>
      rw [same]
    · have history : ∀ sample ∈ ((reopened full).record now (judgedRate full) (windowLoss full)
          (windowDelivered full)).history, credible sample :=
        recorded_credible calibrated.history cause.sample
      have restored := calibrated.restore probe running
      rw [AttemptBrake.measureProbe]
      dsimp only
      split
      · refine ⟨by simp, ?_, history⟩
        intro left same
        cases same
        exact restored
      · refine ⟨fun _ => ?_, ?_, history⟩
        · exact allowed_floored bound restored
        · intro left same
          cases same
    · rw [AttemptBrake.releaseUnshaped]
      split
      · exact ⟨by simp [AttemptBrake.setLimit], calibrated.restore, calibrated.history⟩
      · exact ⟨calibrated.limit, calibrated.restore, calibrated.history⟩
    · exact calibrated_act bound calibrated free cause

theorem calibrated_step (bound : Bound allowed) (calibrated : Calibrated allowed credible brake)
    {input : BrakeInput}
    (justified : ∀ full, closing brake input = some full → full.settling = false →
      Justified allowed credible full input.now) :
    Calibrated allowed credible (brakeStep brake input) := by
  have added : Calibrated allowed credible (opened brake input) := by
    by_cases reset : Resets brake input
    · rcases opened_reset brake input reset with ⟨limit, probe, history, _⟩
      exact ⟨by simp [limit], by rw [probe]; exact calibrated.restore, by simp [history]⟩
    · rcases opened_kept brake input reset with ⟨limit, probe, history, _⟩
      refine ⟨?_, ?_, ?_⟩
      · rw [limit, probe]
        exact calibrated.limit
      · rw [probe]
        exact calibrated.restore
      · rw [history]
        exact calibrated.history
  rcases brake_step_cases brake input with ⟨_, _, same⟩ | ⟨_, _, same⟩ | ⟨full, closes, same⟩ <;>
    rw [same]
  · rcases idle_effect (observed brake input) with ⟨probe, history, _, limit⟩
    refine ⟨?_, by simp [probe], by rw [history]; exact calibrated.history⟩
    intro _
    rw [limit]
    cases running : brake.probe with
    | none =>
        have still : (observed brake input).probe = none := running
        rw [still]
        exact calibrated.limit running
    | some probe =>
        have still : (observed brake input).probe = some probe := running
        rw [still]
        exact allowed_floored bound (calibrated.restore probe running)
  · exact added
  · rcases closing_some closes with ⟨rfl, _⟩
    exact calibrated_close bound added (justified _ closes)

end Steps

theorem calibrated_run {allowed : ℚ → Prop} {credible : Sample → Prop} (bound : Bound allowed)
    {inputs : ℕ → BrakeInput} {states : ℕ → AttemptBrake} (run : BrakeRun inputs states)
    (justified : ∀ time full, closing (states time) (inputs time) = some full →
      full.settling = false → Justified allowed credible full (inputs time).now) :
    ∀ time, Calibrated allowed credible (states time) := by
  apply run_invariant_along (Calibrated allowed credible)
    (fun brake input => ∀ full, closing brake input = some full → full.settling = false →
      Justified allowed credible full input.now) _ run.ticks _ justified
  · intro before input after calibrated cause ticked
    cases ticked
    exact calibrated_step bound calibrated cause
  · rw [run.fresh]
    exact ⟨by simp [newBrake], by simp [newBrake], by simp [newBrake]⟩

section Bottleneck

variable {capacity : WithTop ℚ} {base : ℚ}

/-- A closed window on a path that loses its base share up to a capacity, and more
above it. -/
structure Bottlenecked (capacity : WithTop ℚ) (base : ℚ) (full : AttemptBrake) : Prop where
  least : base ≤ windowLoss full
  within : (windowRate full : WithTop ℚ) ≤ capacity → windowLoss full ≤ base + 3 / 100
  paced : ∀ limit, full.limit = some limit → windowRate full ≤ limit

/-- Above 0.85 of the capacity; no limit is where the capacity is infinite. -/
def NearCapacity (capacity : WithTop ℚ) (limit : ℚ) : Prop :=
  ∃ finite : ℚ, capacity = finite ∧ 85 / 100 * finite < limit

theorem near_capacity_bound (positive : 0 < capacity) : Bound (NearCapacity capacity) where
  upward := by
    rintro low high ⟨finite, same, above⟩ order
    exact ⟨finite, same, lt_of_lt_of_le above order⟩
  positive := by
    rintro limit ⟨finite, rfl, above⟩
    have some : 0 < finite := WithTop.coe_pos.mp positive
    linarith

theorem bottleneck_justified {full : AttemptBrake} (window : Bottlenecked capacity base full)
    (now : ℕ) : Justified (NearCapacity capacity) (fun sample => base ≤ sample.loss) full now where
  sample := window.least
  retreat := by
    intro _ sample known _ lossier
    have exceeds : base + 3 / 100 < windowLoss full := by
      norm_num [attemptLossThreshold] at lossier
      linarith
    have past : ¬ (windowRate full : WithTop ℚ) ≤ capacity := fun fits =>
      absurd (window.within fits) (not_le_of_gt exceeds)
    rcases WithTop.ne_top_iff_exists.mp (ne_top_of_lt (lt_of_not_ge past)) with ⟨finite, rfl⟩
    have above : finite < windowRate full := WithTop.coe_lt_coe.mp (lt_of_not_ge past)
    have counted : windowRate full ≤ judgedRate full := by
      rw [judgedRate]
      cases standing : full.limit with
      | none => exact le_rfl
      | some limit => exact window.paced limit standing
    refine ⟨finite, rfl, ?_⟩
    norm_num [Brake.retreat]
    linarith

/-- Outside a probe the brake never holds attempts below 0.85 of what the path
carries, and where loss does not depend on the rate it does not hold them at all. -/
theorem paced_only_for_bottleneck {inputs : ℕ → BrakeInput} {states : ℕ → AttemptBrake}
    (run : BrakeRun inputs states) (positive : 0 < capacity)
    (windows : ∀ time full, closing (states time) (inputs time) = some full →
      Bottlenecked capacity base full) :
    ∀ time,
      ((states time).probe = none → ∀ limit, (states time).limit = some limit →
        NearCapacity capacity limit) ∧
      (∀ probe, (states time).probe = some probe → ∀ limit, probe.restore = some limit →
        NearCapacity capacity limit) ∧
      (capacity = ⊤ → (states time).probe = none → (states time).limit = none) := by
  intro time
  have calibrated := calibrated_run (near_capacity_bound positive) run
    (fun time full closes _ => bottleneck_justified (windows time full closes) _) time
  refine ⟨calibrated.limit, calibrated.restore, ?_⟩
  rintro rfl free
  cases standing : (states time).limit with
  | none => rfl
  | some limit =>
      rcases calibrated.limit free limit standing with ⟨finite, same, _⟩
      cases same

/-- Ten seconds at one rate, with somebody waiting on the pacer. -/
def steadyTick (time rate lost : ℕ) : BrakeInput where
  seconds := 10
  attempted := 10 * rate
  lost := lost
  responded := 10 * rate - lost
  longestTimeout := 1
  now := 10 ^ 10 * (time + 1)
  waiting := 1

/-- Half of a hundred attempts per second are lost and none of fifty; after the
probe and the retreat that follow, nothing more is sent. -/
def kneeInputs (time : ℕ) : BrakeInput :=
  if time < 2 then steadyTick time 100 500
  else if time < 5 then steadyTick time 50 0
  else if time < 7 then steadyTick time 100 500
  else steadyTick time 0 0

theorem knee_idles {time : ℕ} (late : 7 ≤ time) : Idles (kneeInputs time) := by
  have idle : kneeInputs time = steadyTick time 0 0 := by
    simp [kneeInputs, show ¬ time < 2 by omega, show ¬ time < 5 by omega, show ¬ time < 7 by omega]
  rw [Idles, idle]
  norm_num [steadyTick, attemptIdleQps]

theorem paced_only_for_bottleneck_knee :
    BrakeRun kneeInputs (brakeStates kneeInputs) ∧ (brakeStates kneeInputs 7).limit = some 85 ∧
      ∀ time, (brakeStates kneeInputs time).probe = none →
        ∀ limit, (brakeStates kneeInputs time).limit = some limit →
          NearCapacity ((60 : ℚ) : WithTop ℚ) limit := by
  have run := brake_run_exists kneeInputs
  have measured : ∀ time < 7, (closing (brakeStates kneeInputs time) (kneeInputs time)).all
      (fun full => 0 ≤ windowLoss full && (60 < windowRate full || windowLoss full ≤ 3 / 100) &&
        full.limit.all (windowRate full ≤ ·)) = true := by decide +kernel
  have windows : ∀ time full, closing (brakeStates kneeInputs time) (kneeInputs time) = some full →
      Bottlenecked ((60 : ℚ) : WithTop ℚ) 0 full := by
    intro time full closes
    have early : time < 7 := by
      by_contra late
      exact (closing_some closes).2 (knee_idles (le_of_not_gt late))
    have seen := measured time early
    rw [closes] at seen
    simp only [Option.all_some, Bool.and_eq_true, Bool.or_eq_true, decide_eq_true_eq] at seen
    rcases seen with ⟨⟨least, split⟩, paced⟩
    refine ⟨least, ?_, ?_⟩
    · intro fits
      have below : windowRate full ≤ 60 := WithTop.coe_le_coe.mp fits
      rcases split with above | low
      · exact absurd below (not_le_of_gt above)
      · linarith
    · intro limit standing
      rw [standing] at paced
      simpa using paced
  refine ⟨run, by decide +kernel, ?_⟩
  intro time
  exact (paced_only_for_bottleneck run (WithTop.coe_pos.mpr (by norm_num)) windows time).1

end Bottleneck

section Idleness

def Busy (brake : AttemptBrake) : Prop :=
  0 ≤ brake.seconds ∧ attemptIdleQps * brake.seconds ≤ brake.dispatched

def LetThrough (brake : AttemptBrake) (input : BrakeInput) : Prop :=
  1 / 2 ≤ input.seconds ∧ ∀ limit, brake.limit = some limit →
    input.attempted ≤ limit * input.seconds + max 2 (limit / 50)

theorem busy_step {brake : AttemptBrake} (busy : Busy brake) {input : BrakeInput}
    (long : 1 / 2 ≤ input.seconds) : Busy (brakeStep brake input) := by
  rcases brake_step_cases brake input with ⟨_, _, same⟩ | ⟨active, _, same⟩ | ⟨full, _, same⟩ <;>
    rw [same]
  · -- an idle tick throws the open window away
    exact ⟨le_rfl, by norm_num [AttemptBrake.idle, AttemptBrake.resetWindow]⟩
  · rcases opened_totals brake input with ⟨dispatched, seconds⟩
    have sent := le_of_not_gt active
    rcases busy with ⟨open_, average⟩
    rw [Busy, dispatched, seconds]
    refine ⟨by linarith, ?_⟩
    push_cast
    linarith
  · rcases close_window_reset full input.now with ⟨dispatched, seconds⟩
    rw [Busy, dispatched, seconds]
    norm_num

theorem busy_limit {limit seconds : ℚ} {attempted : ℕ} (long : 1 / 2 ≤ seconds)
    (active : attemptIdleQps * seconds ≤ attempted)
    (letThrough : (attempted : ℚ) ≤ limit * seconds + max 2 (limit / 50)) : 16 ≤ limit := by
  by_contra low
  have small : limit < 16 := lt_of_not_ge low
  have burst : max 2 (limit / 50) = 2 := max_eq_left (by linarith)
  rw [burst] at letThrough
  norm_num [attemptIdleQps] at active
  nlinarith

theorem idleness_justified {brake full : AttemptBrake} (busy : Busy brake) {input : BrakeInput}
    (letThrough : LetThrough brake input) (closes : closing brake input = some full)
    (settled : full.settling = false) :
    Justified (fun limit => 22 < limit) (fun sample => 16 ≤ sample.rate) full input.now := by
  rcases closing_some closes with ⟨rfl, active⟩
  rcases letThrough with ⟨long, tokens⟩
  have sent := le_of_not_gt active
  constructor
  · change 16 ≤ judgedRate (opened brake input)
    have kept : ¬ Resets brake input := fun reset => by
      simp [(opened_reset brake input reset).2.2.2] at settled
    rw [judgedRate, (opened_kept brake input kept).1]
    cases standing : brake.limit with
    | none =>
        -- unpaced: the window's own rate, every tick of which was busy
        rcases opened_totals brake input with ⟨dispatched, seconds⟩
        rcases busy with ⟨open_, average⟩
        rw [Option.getD_none, windowRate, dispatched, seconds, le_div_iff₀ (by linarith)]
        push_cast
        norm_num [attemptIdleQps] at average sent
        linarith
    | some limit => exact busy_limit long sent (tokens limit standing)
  · intro _ sample known below _
    norm_num [attemptReferenceBelow] at below
    norm_num [Brake.retreat]
    linarith

/-- However low the limits `set_limit` accepts, outside a probe the brake never
leaves one under which every later tick would count as idle. -/
theorem never_paced_into_idleness {inputs : ℕ → BrakeInput} {states : ℕ → AttemptBrake}
    (run : BrakeRun inputs states)
    (letThrough : ∀ time, LetThrough (states time) (inputs time)) :
    ∀ time,
      ((states time).probe = none → ∀ limit, (states time).limit = some limit → 22 < limit) ∧
      ∀ sample ∈ (states time).history, 16 ≤ sample.rate := by
  intro time
  have busy : ∀ time, Busy (states time) := by
    apply run_invariant_along Busy (fun _ input => 1 / 2 ≤ input.seconds) _ run.ticks _
      fun time => (letThrough time).1
    · intro before input after busy long ticked
      cases ticked
      exact busy_step busy long
    · rw [run.fresh]
      exact ⟨le_rfl, by norm_num [newBrake]⟩
  have bound : Bound fun limit : ℚ => 22 < limit :=
    ⟨fun _ _ above order => lt_of_lt_of_le above order, fun _ above => by linarith⟩
  have calibrated := calibrated_run bound run
    (fun time full closes settled =>
      idleness_justified (busy time) (letThrough time) closes settled) time
  exact ⟨calibrated.limit, calibrated.history⟩

theorem knee_settled {time : ℕ} (late : 7 ≤ time) :
    (brakeStates kneeInputs time).probe = none ∧
      (brakeStates kneeInputs time).limit = some 85 := by
  induction time, late using Nat.le_induction with
  | base => decide +kernel
  | succ time late ih =>
      have idles : brakeStates kneeInputs (time + 1) =
          (observed (brakeStates kneeInputs time) (kneeInputs time)).idle :=
        if_pos (knee_idles late)
      rcases idle_effect (observed (brakeStates kneeInputs time) (kneeInputs time)) with
        ⟨probe, _, _, limit⟩
      have still : (observed (brakeStates kneeInputs time) (kneeInputs time)).probe = none := ih.1
      rw [still] at limit
      rw [idles, limit]
      exact ⟨probe, ih.2⟩

theorem never_paced_into_idleness_knee :
    BrakeRun kneeInputs (brakeStates kneeInputs) ∧ (brakeStates kneeInputs 7).limit = some 85 ∧
      ∀ time, ∀ sample ∈ (brakeStates kneeInputs time).history, 16 ≤ sample.rate := by
  have run := brake_run_exists kneeInputs
  have measured : ∀ time < 7, (brakeStates kneeInputs time).limit.all (fun limit =>
      (kneeInputs time).attempted ≤ limit * (kneeInputs time).seconds + max 2 (limit / 50)) =
        true := by decide +kernel
  have letThrough : ∀ time, LetThrough (brakeStates kneeInputs time) (kneeInputs time) := by
    intro time
    have long : (kneeInputs time).seconds = 10 := by
      rw [kneeInputs]
      split_ifs <;> rfl
    refine ⟨by norm_num [long], ?_⟩
    intro limit standing
    rcases Nat.lt_or_ge time 7 with early | late
    · have tokens := measured time early
      rw [standing] at tokens
      simpa using tokens
    · have idles := knee_idles late
      rw [(knee_settled late).2] at standing
      cases standing
      norm_num [Idles, attemptIdleQps, long] at idles ⊢
      linarith
  refine ⟨run, by decide +kernel, ?_⟩
  intro time
  exact (never_paced_into_idleness run letThrough time).2

end Idleness

end BlastDns.AttemptPacing
