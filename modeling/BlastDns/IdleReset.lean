import BlastDns.Probes
import Mathlib.Algebra.BigOperators.Intervals

/-!
What a long idle makes the attempt brake forget. The busy tick that ends a block
of idle ticks takes the block for as long as its own length times their number,
so what the brake does is right where that product and the time that really went
by are on the same side of a minute, or where there was nothing to forget.
-/

namespace BlastDns.IdleReset

open Brake BrakeTick Probes Runs

/-- What the brake has learnt, and the limit it has set for it; nothing by default,
as in a new brake. -/
structure Memory where
  history : List Sample := []
  referenceWindowNs : ℕ := attemptReferenceWindowNs
  probed : Bool := false
  limit : Option ℚ := none
  deriving DecidableEq

def memory (brake : AttemptBrake) : Memory where
  history := brake.history
  referenceWindowNs := brake.referenceWindowNs
  probed := brake.probed
  limit := brake.limit

def restored (brake : AttemptBrake) : Memory :=
  { memory brake with
    limit := match brake.probe with
      | some probe => probe.restore
      | none => brake.limit }

structure IdleBlock (inputs : ℕ → BrakeInput) (first last : ℕ) : Prop where
  some : first < last
  idle : ∀ time, first ≤ time → time < last → Idles (inputs time)
  ends : ¬ Idles (inputs last)
  begins : ∀ time, time + 1 = first → ¬ Idles (inputs time)

def idleLength (inputs : ℕ → BrakeInput) (first last : ℕ) : ℚ :=
  ∑ time ∈ Finset.Ico first last, (inputs time).seconds

/-- A block of a minute or more leaves a brake that has learnt nothing, a shorter
one the brake as it was. -/
def HonoursIdle (inputs : ℕ → BrakeInput) (states : ℕ → AttemptBrake) (first last : ℕ) : Prop :=
  (60 ≤ idleLength inputs first last → memory (states (last + 1)) = {}) ∧
    (idleLength inputs first last < 60 → memory (states (last + 1)) = restored (states first))

/-- The u32 count of idle ticks, taken for as long as the busy tick that follows. -/
def assumedIdle (inputs : ℕ → BrakeInput) (first last : ℕ) : ℚ :=
  (inputs last).seconds * (min (last - first) (2 ^ 32 - 1) : ℕ)

section Ticks

variable {brake : AttemptBrake} {input : BrakeInput}

theorem restored_free (free : brake.probe = none) : restored brake = memory brake := by
  simp only [restored, free]
  rfl

theorem idle_tick (idles : Idles input) : brakeStep brake input = (observed brake input).idle := by
  rcases brake_step_cases brake input with ⟨_, _, step⟩ | ⟨busy, _⟩ | ⟨full, closes, _⟩
  · exact step
  · exact absurd idles busy
  · exact absurd idles (closing_some closes).2

/-- An idle tick keeps what was learnt, gives a probe's limit back and counts itself. -/
theorem idle_tick_keeps (tied : Tied brake) (idles : Idles input) :
    (brakeStep brake input).probe = none ∧ memory (brakeStep brake input) = restored brake ∧
      (brakeStep brake input).idleTicks = min (brake.idleTicks + 1) (2 ^ 32 - 1) := by
  rw [idle_tick idles, AttemptBrake.idle]
  cases running : brake.probe with
  | none =>
      have still : (observed brake input).probe = none := running
      simp only [still, restored, running]
      exact ⟨rfl, rfl, rfl⟩
  | some probe =>
      have still : (observed brake input).probe = some probe := running
      have given := floored_same (tied.restore probe running)
      simp only [still, restored, running]
      refine ⟨rfl, ?_, rfl⟩
      -- the floor of `set_limit` is below every limit a probe has to give back
      change ({ memory brake with limit := probe.restore.map fun rate => max rate attemptMinRate } :
        Memory) = { memory brake with limit := probe.restore }
      rw [given]

theorem busy_tick_clears (busy : ¬ Idles input) : (brakeStep brake input).idleTicks = 0 := by
  rcases brake_step_cases brake input with ⟨idles, _⟩ | ⟨_, _, step⟩ | ⟨full, closes, step⟩
  · exact absurd idles busy
  · rw [step]
    exact opened_busy brake input
  · obtain ⟨rfl, _⟩ := closing_some closes
    obtain ⟨base, closed, same | ⟨limit, same⟩⟩ := close_window_sets (opened brake input) input.now
    · rw [step, same, closed.idleTicks]
      exact opened_busy brake input
    · have kept : (base.setLimit limit).idleTicks = base.idleTicks := rfl
      rw [step, same, kept, closed.idleTicks]
      exact opened_busy brake input

theorem opened_memory (idled : 0 < brake.idleTicks) :
    memory (opened brake input) =
      if 60 ≤ input.seconds * brake.idleTicks then {} else memory brake := by
  have same : (observed brake input).idleTicks = brake.idleTicks := rfl
  rw [opened, AttemptBrake.resume]
  by_cases long : 60 ≤ input.seconds * brake.idleTicks
  · simp only [same, if_pos idled, if_pos long]
    rfl
  · simp only [same, if_pos idled, if_neg long]
    rfl

/-- The first busy tick after idle ones settles: a window that it completes is
discarded, so the decision to start over is all that it does to the memory. -/
theorem resuming_tick (idled : 0 < brake.idleTicks) (busy : ¬ Idles input) :
    memory (brakeStep brake input) =
      if 60 ≤ input.seconds * brake.idleTicks then {} else memory brake := by
  have settles : (opened brake input).settling = true := by
    by_cases reset : Resets brake input
    · exact (opened_reset brake input reset).2.2.2
    · exact (opened_kept brake input reset).2.2.2.2.mpr (Or.inr idled)
  rcases brake_step_cases brake input with ⟨idles, _⟩ | ⟨_, _, step⟩ | ⟨full, closes, step⟩
  · exact absurd idles busy
  · rw [step, opened_memory idled]
  · obtain ⟨rfl, _⟩ := closing_some closes
    rcases close_window_cases (opened brake input) input.now with
      ⟨_, discarded⟩ | ⟨settled, _⟩
    · rw [step, discarded, ← opened_memory idled]
      rfl
    · rw [settles] at settled
      cases settled

end Ticks

section Blocks

variable {inputs : ℕ → BrakeInput} {states : ℕ → AttemptBrake} {first last : ℕ}

theorem brake_run_step (run : BrakeRun inputs states) (time : ℕ) :
    states (time + 1) = brakeStep (states time) (inputs time) :=
  (Option.some.inj (run.ticks time)).symm

theorem brake_run_tied (run : BrakeRun inputs states) (time : ℕ) : Tied (states time) := by
  apply run_invariant Tied _ run.ticks
  · rw [run.fresh]
    exact tied_new
  · intro before input after tied ticked
    cases ticked
    exact tied_step tied

theorem block_starts_counting (run : BrakeRun inputs states) (block : IdleBlock inputs first last) :
    (states first).idleTicks = 0 := by
  cases first with
  | zero => rw [run.fresh]; rfl
  | succ time =>
      rw [brake_run_step run time]
      exact busy_tick_clears (block.begins time rfl)

theorem block_tick (run : BrakeRun inputs states) (block : IdleBlock inputs first last) {time : ℕ}
    (lower : first ≤ time) (upper : time < last) :
    (states (time + 1)).probe = none ∧ memory (states (time + 1)) = restored (states time) ∧
      (states (time + 1)).idleTicks = min ((states time).idleTicks + 1) (2 ^ 32 - 1) := by
  rw [brake_run_step run time]
  exact idle_tick_keeps (brake_run_tied run time) (block.idle time lower upper)

/-- So far into a block, the brake has lost the probe it may have been running
and nothing else. -/
theorem block_keeps (run : BrakeRun inputs states) (block : IdleBlock inputs first last)
    {time : ℕ} (lower : first < time) (upper : time ≤ last) :
    (states time).probe = none ∧ memory (states time) = restored (states first) ∧
      (states time).idleTicks = min (time - first) (2 ^ 32 - 1) := by
  induction time, lower using Nat.le_induction with
  | base =>
      have ticked := block_tick run block le_rfl block.some
      rw [block_starts_counting run block] at ticked
      rw [Nat.succ_sub le_rfl, Nat.sub_self]
      exact ticked
  | succ time lower ih =>
      obtain ⟨free, same, counted⟩ := ih (Nat.le_of_succ_le upper)
      obtain ⟨ended, kept, more⟩ := block_tick run block (Nat.le_of_lt lower) upper
      refine ⟨ended, ?_, ?_⟩
      · rw [kept, restored_free free, same]
      · rw [more, counted]
        omega

theorem block_outcome (run : BrakeRun inputs states) (block : IdleBlock inputs first last) :
    memory (states (last + 1)) =
      if 60 ≤ assumedIdle inputs first last then {} else restored (states first) := by
  obtain ⟨_, kept, counted⟩ := block_keeps run block block.some le_rfl
  have length : 0 < last - first := Nat.sub_pos_of_lt block.some
  have idled : 0 < (states last).idleTicks := by
    rw [counted]
    omega
  rw [brake_run_step run last, resuming_tick idled block.ends, counted, kept, assumedIdle]

/-- A long idle starts the brake over and a short one does not, exactly where the
length assumed for the block is on the same side of a minute as the one it had,
or the brake had learnt nothing to forget. -/
theorem idle_honoured_iff (run : BrakeRun inputs states) (block : IdleBlock inputs first last) :
    HonoursIdle inputs states first last ↔
      (60 ≤ idleLength inputs first last ↔ 60 ≤ assumedIdle inputs first last) ∨
        restored (states first) = {} := by
  rw [HonoursIdle, block_outcome run block]
  by_cases assumed : 60 ≤ assumedIdle inputs first last
  · rw [if_pos assumed]
    by_cases long : 60 ≤ idleLength inputs first last
    · simp [assumed, long]
    · simp [assumed, long, lt_of_not_ge long, eq_comm]
  · rw [if_neg assumed]
    by_cases long : 60 ≤ idleLength inputs first last
    · simp [assumed, long, not_lt_of_ge long]
    · simp [assumed, long]

/-- Where ticks are of one length, and not more of them idle than a u32 can count,
the estimate is the length of the block. -/
theorem even_ticks_assumed (length : ℚ) (even : ∀ time, (inputs time).seconds = length)
    (counted : last - first < 2 ^ 32) :
    assumedIdle inputs first last = idleLength inputs first last := by
  have held : min (last - first) (2 ^ 32 - 1) = last - first := by omega
  rw [assumedIdle, idleLength, held, even last, Finset.sum_congr rfl fun time _ => even time,
    Finset.sum_const, Nat.card_Ico, nsmul_eq_mul, mul_comm]

end Blocks

section Pauses

/-- Ticks of a second with a thousand answers each, but for those from tick 2 to
before `last`, which send nothing and take `idle` seconds. -/
def pauseInputs (idle last time : ℕ) : BrakeInput :=
  let paused := 2 ≤ time && time < last
  { seconds := if paused then idle else 1
    attempted := if paused then 0 else 1000
    lost := 0
    responded := if paused then 0 else 1000
    longestTimeout := 1 / 10
    now := 10 ^ 9 * (min (time + 1) 2 + idle * (min (time + 1) last - 2) + (time + 1 - last))
    waiting := 0 }

theorem pause_block {idle last : ℕ} (lasts : 0 < idle) (some : 2 < last) :
    IdleBlock (pauseInputs idle last) 2 last := by
  have busy : ∀ time, ¬ (2 ≤ time ∧ time < last) → ¬ Idles (pauseInputs idle last time) := by
    intro time outside
    norm_num [Idles, pauseInputs, outside, attemptIdleQps]
  constructor
  · exact some
  · intro time lower upper
    have long : (0 : ℚ) < idle := by exact_mod_cast lasts
    simp [Idles, pauseInputs, lower, upper, attemptIdleQps, long]
  · exact busy last (by omega)
  · intro time before
    exact busy time (by omega)

theorem idle_honoured_minute :
    IdleBlock (pauseInputs 1 62) 2 62 ∧ memory (brakeStates (pauseInputs 1 62) 2) ≠ {} ∧
      HonoursIdle (pauseInputs 1 62) (brakeStates (pauseInputs 1 62)) 2 62 := by
  have block : IdleBlock (pauseInputs 1 62) 2 62 := pause_block (by decide) (by decide)
  refine ⟨block, by decide +kernel, ?_⟩
  apply (idle_honoured_iff (brake_run_exists (pauseInputs 1 62)) block).mpr
  left
  rw [even_ticks_assumed 1 _ (by decide)]
  intro time
  simp [pauseInputs]

/-- Seventy seconds went by in one idle tick, and count for the one second of the
tick after it. -/
theorem stalled_idle_unnoticed :
    BrakeRun (pauseInputs 70 3) (brakeStates (pauseInputs 70 3)) ∧
      IdleBlock (pauseInputs 70 3) 2 3 ∧ idleLength (pauseInputs 70 3) 2 3 = 70 ∧
      ¬ HonoursIdle (pauseInputs 70 3) (brakeStates (pauseInputs 70 3)) 2 3 := by
  have length : idleLength (pauseInputs 70 3) 2 3 = 70 := by decide +kernel
  refine ⟨brake_run_exists _, pause_block (by decide) (by decide), length, ?_⟩
  rintro ⟨long, _⟩
  rw [length] at long
  exact absurd (long (by norm_num)) (by decide +kernel)

end Pauses

end BlastDns.IdleReset
