import BlastDns.AttemptControl
import Mathlib.Tactic.IntervalCases

/-!
Probes are transparent: a probe lowers the limit for two judged windows and
gives back exactly what it found. `set_limit` floors every limit it stores, so
a restored one passes the floor unchanged; an idle tick ends a probe before it
can count as idle; and the branch that switches the brake off is out of reach
once the brake has acted, because a resolver that has answered stays answered.
-/

namespace BlastDns.Probes

open Brake BrakeTick Controller ControlRuns LaneTick AttemptControl Runs

/-- The pacer runs at the limit, every limit is at or above the floor, and a
running probe has seen no idle tick. -/
structure Tied (brake : AttemptBrake) : Prop where
  pacer : brake.pacer.rate = brake.limit
  floor : ∀ limit, brake.limit = some limit → attemptMinRate ≤ limit
  busy : ∀ probe, brake.probe = some probe → brake.idleTicks = 0
  restore : ∀ probe, brake.probe = some probe →
    ∀ limit, probe.restore = some limit → attemptMinRate ≤ limit

section Steps

variable {brake : AttemptBrake} {input : BrakeInput}

theorem floored_limit (limit : Option ℚ) :
    ∀ rate, (limit.map fun rate => max rate attemptMinRate) = some rate → attemptMinRate ≤ rate := by
  intro rate same
  rcases Option.map_eq_some_iff.mp same with ⟨asked, _, rfl⟩
  exact le_max_right _ _

theorem floored_same {limit : Option ℚ} (floor : ∀ rate, limit = some rate → attemptMinRate ≤ rate) :
    (limit.map fun rate => max rate attemptMinRate) = limit := by
  cases limit with
  | none => rfl
  | some rate => rw [Option.map_some, max_eq_left (floor rate rfl)]

theorem tied_set_limit (limit : Option ℚ)
    (busy : ∀ probe, brake.probe = some probe → brake.idleTicks = 0)
    (restore : ∀ probe, brake.probe = some probe →
      ∀ limit, probe.restore = some limit → attemptMinRate ≤ limit) : Tied (brake.setLimit limit) where
  pacer := rfl
  floor := floored_limit limit
  busy := busy
  restore := restore

theorem tied_new : Tied newBrake :=
  ⟨rfl, by simp [newBrake], by simp [newBrake], by simp [newBrake]⟩

theorem tied_observed (tied : Tied brake) : Tied (observed brake input) :=
  ⟨tied.pacer, tied.floor, tied.busy, tied.restore⟩

theorem tied_idle (tied : Tied brake) : Tied brake.idle := by
  rw [AttemptBrake.idle]
  cases running : brake.probe with
  | none => exact ⟨tied.pacer, tied.floor, by simp [running, AttemptBrake.resetWindow],
      by simp [running, AttemptBrake.resetWindow]⟩
  | some probe =>
      have given : Tied ({ brake with probe := none }.setLimit probe.restore) :=
        tied_set_limit probe.restore (by simp) (by simp)
      exact ⟨given.pacer, given.floor, by simp [AttemptBrake.setLimit, AttemptBrake.resetWindow],
        by simp [AttemptBrake.setLimit, AttemptBrake.resetWindow]⟩

theorem tied_opened (tied : Tied brake) : Tied (opened brake input) := by
  rw [opened, AttemptBrake.resume]
  split
  · dsimp only
    split
    · exact ⟨rfl, floored_limit none, fun _ _ => rfl, tied.restore⟩
    · exact ⟨tied.pacer, tied.floor, fun _ _ => rfl, tied.restore⟩
  · exact ⟨tied.pacer, tied.floor, tied.busy, tied.restore⟩

theorem opened_busy (brake : AttemptBrake) (input : BrakeInput) :
    (opened brake input).idleTicks = 0 := by
  rw [opened, AttemptBrake.resume]
  split
  · dsimp only
    split <;> rfl
  · rename_i none
    exact Nat.eq_zero_of_not_pos none

theorem tied_close {full : AttemptBrake} (tied : Tied full) (quiet : full.idleTicks = 0) (now : ℕ) :
    Tied (full.closeWindow now) := by
  rcases close_window_sets full now with ⟨base, closed, set⟩
  have busy : ∀ probe, base.probe = some probe → base.idleTicks = 0 :=
    fun _ _ => closed.idleTicks.trans quiet
  have restore : ∀ probe, base.probe = some probe →
      ∀ limit, probe.restore = some limit → attemptMinRate ≤ limit := by
    rintro probe running
    rcases closed.restore probe running with same | ⟨old, before, same⟩ <;> rw [same]
    · exact tied.floor
    · exact tied.restore old before
  rcases set with same | ⟨limit, same⟩ <;> rw [same]
  · constructor
    · rw [closed.pacer, closed.limit]
      exact tied.pacer
    · rw [closed.limit]
      exact tied.floor
    · exact busy
    · exact restore
  · exact tied_set_limit limit busy restore

theorem tied_step (tied : Tied brake) : Tied (brakeStep brake input) := by
  rcases brake_step_cases brake input with ⟨_, _, same⟩ | ⟨_, _, same⟩ | ⟨full, closes, same⟩ <;>
    rw [same]
  · exact tied_idle (tied_observed tied)
  · exact tied_opened tied
  · rcases closing_some closes with ⟨rfl, _⟩
    exact tied_close (tied_opened tied) (opened_busy brake input) _

/-- A tick with a probe running: given back when idle, kept while no window is
judged, counted down by one that is, and given back by the last. -/
theorem probe_step (tied : Tied brake) {probe : Probe} (running : brake.probe = some probe) :
    (Idles input ∧ judging brake input = none ∧ (brakeStep brake input).probe = none ∧
      (brakeStep brake input).limit = probe.restore) ∨
    (judging brake input = none ∧ (brakeStep brake input).probe = some probe ∧
      (brakeStep brake input).limit = brake.limit) ∨
    ((judging brake input).isSome ∧ 1 < probe.windows ∧
      (brakeStep brake input).probe = some { probe with windows := probe.windows - 1 } ∧
      (brakeStep brake input).limit = brake.limit) ∨
    ((judging brake input).isSome ∧ ¬ 1 < probe.windows ∧ (brakeStep brake input).probe = none ∧
      (brakeStep brake input).limit = probe.restore) := by
  have given := floored_same (tied.restore probe running)
  -- no idle tick is on count, so the tick cannot start over
  have kept : ¬ Resets brake input := fun reset => by
    have some := reset.1
    rw [tied.busy probe running] at some
    exact absurd some (lt_irrefl 0)
  rcases opened_kept brake input kept with ⟨limit, same, _⟩
  rw [running] at same
  rcases brake_step_cases brake input with
    ⟨idles, open_, step⟩ | ⟨_, open_, step⟩ | ⟨full, closes, step⟩
  · left
    rcases idle_effect (observed brake input) with ⟨ended, _, _, restored⟩
    have still : (observed brake input).probe = some probe := running
    rw [still] at restored
    exact ⟨idles, by rw [judging, open_]; rfl, by rw [step, ended],
      by rw [step, restored]; exact given⟩
  · exact Or.inr (Or.inl ⟨by rw [judging, open_]; rfl, by rw [step, same], by rw [step, limit]⟩)
  · rcases closing_some closes with ⟨rfl, _⟩
    rcases close_window_cases (opened brake input) input.now with
      ⟨settles, outcome⟩ | ⟨settled, ⟨counted, now, outcome⟩ | ⟨free, _⟩ | ⟨free, _⟩⟩
    · refine Or.inr (Or.inl ⟨?_, ?_, ?_⟩)
      · simp [judging, closes, settles]
      · rw [step, outcome]
        exact same
      · rw [step, outcome]
        exact limit
    · rw [same] at now
      cases now
      have judged : (judging brake input).isSome := by simp [judging, closes, settled]
      rw [step, outcome, AttemptBrake.measureProbe]
      dsimp only
      by_cases more : 1 < probe.windows
      · rw [if_pos more]
        exact Or.inr (Or.inr (Or.inl ⟨judged, more, rfl, limit⟩))
      · rw [if_neg more]
        exact Or.inr (Or.inr (Or.inr ⟨judged, more, rfl, given⟩))
    · rw [same] at free
      cases free
    · rw [same] at free
      cases free

/-- Only a judged window starts a probe, with the limit in force to restore. -/
theorem probe_starts (free : brake.probe = none) {probe : Probe}
    (started : (brakeStep brake input).probe = some probe) :
    ∃ full, judging brake input = some full ∧
      probe = { restore := brake.limit, windows := attemptProbeWindows } ∧
      (brakeStep brake input).limit =
        some (max (judgedRate full * attemptProbeFraction) attemptMinRate) := by
  have idle := opened_probe brake input
  rw [free] at idle
  rcases brake_step_cases brake input with ⟨_, _, step⟩ | ⟨_, _, step⟩ | ⟨full, closes, step⟩ <;>
    rw [step] at started ⊢
  · rw [(idle_effect (observed brake input)).1] at started
    cases started
  · rw [idle] at started
    cases started
  · rcases closing_some closes with ⟨rfl, _⟩
    rcases close_window_cases (opened brake input) input.now with
      ⟨_, outcome⟩ | ⟨settled, ⟨counted, now, _⟩ | ⟨_, _, _, outcome⟩ | ⟨_, _, outcome⟩⟩
    · rw [outcome] at started
      cases idle.symm.trans started
    · cases idle.symm.trans now
    · rw [outcome, AttemptBrake.releaseUnshaped] at started
      split at started <;> cases idle.symm.trans started
    · have judged : judging brake input = some (opened brake input) := by
        simp [judging, closes, settled]
      have kept : ¬ Resets brake input := fun reset => by
        simp [(opened_reset brake input reset).2.2.2] at settled
      rcases act_cases (reopened (opened brake input)) input.now (judgedRate (opened brake input))
        (windowLoss (opened brake input)) (windowDelivered (opened brake input)) with
        ⟨_, acted⟩ | ⟨_, acted | acted⟩ | ⟨_, _, ⟨_, acted⟩ | ⟨_, _, acted⟩⟩ <;>
        rw [outcome, acted] at started
      · rw [outcome, acted]
        cases started
        refine ⟨_, judged, ?_, rfl⟩
        rw [← (opened_kept brake input kept).1]
        rfl
      -- whatever else is decided keeps the probe, and there was none
      · rw [decided_probe] at started
        cases idle.symm.trans started
      · rw [set_limit_probe, decided_probe] at started
        cases idle.symm.trans started
      · rw [decided_probe] at started
        cases idle.symm.trans started
      · rw [set_limit_probe, decided_probe] at started
        cases idle.symm.trans started

end Steps

section Pool

variable {n : ℕ}

def Counting (inputs : ℕ → TickInput n) : Prop :=
  ∀ time i, (observe ((inputs time).resolvers i)).responded ≤
    (observe ((inputs (time + 1)).resolvers i)).responded

theorem responsive_count (control : Control n) (input : TickInput n) :
    (control.tickTotals input).responsive =
      (List.finRange n).countP fun i => 0 < (observe (input.resolvers i)).responded := by
  have counted : ∀ (order : List (Fin n)) (totals : Control.Totals),
      (order.foldl (fun totals i => Control.resolverCount input i (control.lane i) totals)
        totals).responsive =
      totals.responsive + order.countP fun i => 0 < (observe (input.resolvers i)).responded := by
    intro order
    induction order with
    | nil => exact fun _ => rfl
    | cons i rest ih =>
        intro totals
        rw [List.foldl_cons, ih, List.countP_cons]
        simp only [Control.resolverCount, Control.Totals.add, decide_eq_true_eq]
        split <;> omega
  rw [Control.tickTotals, counted]
  exact Nat.zero_add _

theorem responsive_grows {inputs : ℕ → TickInput n} (counting : Counting inputs) (time : ℕ)
    (before after : Control n) :
    (before.tickTotals (inputs time)).responsive ≤
      (after.tickTotals (inputs (time + 1))).responsive := by
  rw [responsive_count, responsive_count]
  apply List.countP_mono_left
  intro i _ answered
  have more := counting time i
  simp only [decide_eq_true_eq] at answered ⊢
  omega

end Pool

section Runs

variable {n : ℕ} {ceiling : ℚ} {inputs : ℕ → TickInput n} {states : ℕ → Control n}

def brakeAt (states : ℕ → Control n) (time : ℕ) : AttemptBrake := (states time).controller.attempts

theorem tied_flagged {control : Control n} {input : TickInput n}
    (tied : Tied control.controller.attempts) : Tied (flagged control input) :=
  ⟨tied.pacer, tied.floor, tied.busy, tied.restore⟩

theorem run_tied (run : ControlRun ceiling inputs states) (time : ℕ) : Tied (brakeAt states time) := by
  apply run_invariant (fun control : Control n => Tied control.controller.attempts) _ run.ticks
  · rw [new_attempts run.fresh]
    exact tied_new
  · intro before input after tied ticked
    have marked : Tied (flagged before input) := tied_flagged tied
    rcases tick_attempts_cases ticked with ⟨_, same⟩ | ⟨_, _, same⟩ | ⟨_, _, same⟩ <;> rw [same]
    · exact tied_step marked
    · exact tied_set_limit none marked.busy marked.restore
    · exact tied_observed marked

/-- A brake that has a limit or a probe has acted, and only a tick with enough
responding resolvers lets it act. -/
theorem run_engaged (run : ControlRun ceiling inputs states) (counting : Counting inputs) (time : ℕ)
    (acting : (brakeAt states time).limit ≠ none ∨ (brakeAt states time).probe ≠ none) :
    Engaged (states time) (inputs time) := by
  induction time with
  | zero =>
      have fresh : brakeAt states 0 = newBrake := new_attempts run.fresh
      rw [fresh] at acting
      simp [newBrake] at acting
  | succ time ih =>
      have earlier : Engaged (states time) (inputs time) := by
        by_contra few
        apply few
        apply ih
        rcases tick_attempts_cases (run.ticks time) with
          ⟨engaged, _⟩ | ⟨_, limited, _⟩ | ⟨_, _, same⟩
        · exact absurd engaged few
        · exact Or.inl (Option.isSome_iff_ne_none.mp limited)
        · rw [brakeAt, same] at acting
          exact acting
      exact le_trans earlier (responsive_grows counting time _ _)

theorem run_brake_step (run : ControlRun ceiling inputs states) (counting : Counting inputs)
    {time : ℕ}
    (acting : (brakeAt states time).limit ≠ none ∨ (brakeAt states time).probe ≠ none) :
    brakeAt states (time + 1) =
      brakeStep (flagged (states time) (inputs time)) (brakeInput (states time) (inputs time)) := by
  rw [brakeAt, tick_attempts (run.ticks time), if_pos (run_engaged run counting time acting)]

def judgesWindow (control : Control n) (input : TickInput n) : Bool :=
  (attemptWindow control input).any fun full => !full.settling

def judgedWindows (inputs : ℕ → TickInput n) (states : ℕ → Control n) (first length : ℕ) : ℕ :=
  (List.range length).countP fun later =>
    judgesWindow (states (first + later)) (inputs (first + later))

theorem judged_windows_succ (first length : ℕ) :
    judgedWindows inputs states first (length + 1) = judgedWindows inputs states first length +
      if judgesWindow (states (first + length)) (inputs (first + length)) then 1 else 0 := by
  rw [judgedWindows, List.range_succ, List.countP_append, List.countP_singleton]
  rfl

theorem judges_window_iff {control : Control n} {input : TickInput n}
    (engaged : Engaged control input) :
    judgesWindow control input =
      (judging (flagged control input) (brakeInput control input)).isSome := by
  rw [judgesWindow, attemptWindow, if_pos engaged, judging]
  cases closing (flagged control input) (brakeInput control input) with
  | none => rfl
  | some full => cases settles : full.settling <;> simp [settles]

/-- `length` ticks into the probe that tick `start` has started. -/
structure Probing (inputs : ℕ → TickInput n) (states : ℕ → Control n) (start length : ℕ)
    (probe : Probe) : Prop where
  running : (brakeAt states (start + 1 + length)).probe = some probe
  restore : probe.restore = (brakeAt states start).limit
  windows : probe.windows + judgedWindows inputs states (start + 1) length = 2
  left : 1 ≤ probe.windows
  limit : (brakeAt states (start + 1 + length)).limit = (brakeAt states (start + 1)).limit

theorem probe_begins (run : ControlRun ceiling inputs states) {start : ℕ}
    (free : (brakeAt states start).probe = none)
    (started : (brakeAt states (start + 1)).probe ≠ none) :
    (∃ probe, Probing inputs states start 0 probe) ∧
      ∃ full, attemptWindow (states start) (inputs start) = some full ∧
        (brakeAt states (start + 1)).limit = some (max (judgedRate full / 2) 10) := by
  rcases Option.ne_none_iff_exists'.mp started with ⟨probe, running⟩
  have idle : (flagged (states start) (inputs start)).probe = none := free
  rcases tick_attempts_cases (run.ticks start) with ⟨engaged, same⟩ | ⟨_, _, same⟩ | ⟨_, _, same⟩
  · have step : brakeAt states (start + 1) = _ := same
    have begun := running
    rw [step] at begun
    rcases probe_starts idle begun with ⟨full, judged, known, lowered⟩
    refine ⟨⟨probe, running, ?_, ?_, ?_, rfl⟩, full, ?_, ?_⟩
    · rw [known]
      rfl
    · rw [known]
      rfl
    · rw [known]
      exact Nat.le_of_lt Nat.one_lt_two
    · rw [attemptWindow, if_pos engaged]
      exact (Option.filter_eq_some_iff.mp judged).1
    · have half : judgedRate full * attemptProbeFraction = judgedRate full / 2 := by
        rw [attemptProbeFraction]
        ring
      rw [step, lowered, half]
      rfl
  · rw [brakeAt, same] at running
    cases idle.symm.trans running
  · rw [brakeAt, same] at running
    cases idle.symm.trans running

/-- One more tick: the probe goes on as it was or with one window less, or it ends. -/
theorem probe_tick (run : ControlRun ceiling inputs states) (counting : Counting inputs)
    {start length : ℕ} {probe : Probe} (probing : Probing inputs states start length probe) :
    (∃ next, Probing inputs states start (length + 1) next) ∨
    ((brakeAt states (start + 1 + length + 1)).probe = none ∧
      (Idles (brakeInput (states (start + 1 + length)) (inputs (start + 1 + length))) ∨
        judgedWindows inputs states (start + 1) (length + 1) = 2) ∧
      (brakeAt states (start + 1 + length + 1)).limit = (brakeAt states start).limit) := by
  rcases probing with ⟨running, restore, windows, left, limit⟩
  have acting : (brakeAt states (start + 1 + length)).limit ≠ none ∨
      (brakeAt states (start + 1 + length)).probe ≠ none := by
    right
    rw [running]
    simp
  have step := run_brake_step run counting acting
  have judges := judges_window_iff (run_engaged run counting _ acting)
  have counts : judgedWindows inputs states (start + 1) (length + 1) = _ :=
    judged_windows_succ (start + 1) length
  have tied : Tied (flagged (states (start + 1 + length)) (inputs (start + 1 + length))) :=
    tied_flagged (run_tied run _)
  rw [judges] at counts
  rcases probe_step tied running with ⟨idles, unjudged, ended, given⟩ | ⟨unjudged, kept, same⟩ |
      ⟨judged, more, kept, same⟩ | ⟨judged, last, ended, given⟩
  · refine Or.inr ⟨by rw [step, ended], Or.inl idles, ?_⟩
    rw [step, given, restore]
  · refine Or.inl ⟨probe, ?_, restore, ?_, left, ?_⟩
    · rw [← Nat.add_assoc, step, kept]
    · rw [counts, unjudged]
      exact windows
    · rw [← Nat.add_assoc, step, same]
      exact limit
  · refine Or.inl ⟨{ probe with windows := probe.windows - 1 }, ?_, restore, ?_, ?_, ?_⟩
    · rw [← Nat.add_assoc, step, kept]
    · rw [counts, if_pos judged]
      dsimp only
      omega
    · dsimp only
      omega
    · rw [← Nat.add_assoc, step, same]
      exact limit
  · refine Or.inr ⟨by rw [step, ended], Or.inr ?_, ?_⟩
    · rw [counts, if_pos judged]
      omega
    · rw [step, given, restore]

theorem probe_runs (run : ControlRun ceiling inputs states) (counting : Counting inputs)
    {start : ℕ} (free : (brakeAt states start).probe = none) (length : ℕ)
    (running : ∀ later ≤ length, (brakeAt states (start + 1 + later)).probe ≠ none) :
    ∃ probe, Probing inputs states start length probe := by
  induction length with
  | zero => exact (probe_begins run free (running 0 le_rfl)).1
  | succ length ih =>
      rcases ih fun later short => running later (Nat.le_succ_of_le short) with ⟨probe, probing⟩
      rcases probe_tick run counting probing with next | ⟨ended, _⟩
      · exact next
      · exact absurd ended (running (length + 1) le_rfl)

/-- The pacer always runs at the limit; a probe holds its own limit until an idle
tick or its second judged window ends it, and then the limit it found is in
force again; and the brake is never switched off under a limit or a probe. -/
theorem probes_transparent (run : ControlRun ceiling inputs states) (counting : Counting inputs) :
    (∀ time, (brakeAt states time).pacer.rate = (brakeAt states time).limit ∧
      ∀ limit, (brakeAt states time).limit = some limit → 10 ≤ limit) ∧
    (∀ start, (brakeAt states start).probe = none →
      ∀ length, (∀ later ≤ length, (brakeAt states (start + 1 + later)).probe ≠ none) →
        (∃ full, attemptWindow (states start) (inputs start) = some full ∧
          (brakeAt states (start + 1 + length)).limit = some (max (judgedRate full / 2) 10)) ∧
        judgedWindows inputs states (start + 1) length < 2 ∧
        ((brakeAt states (start + 1 + length + 1)).probe = none →
          (Idles (brakeInput (states (start + 1 + length)) (inputs (start + 1 + length))) ∨
            judgedWindows inputs states (start + 1) (length + 1) = 2) ∧
          (brakeAt states (start + 1 + length + 1)).limit = (brakeAt states start).limit)) ∧
    ∀ time, (brakeAt states time).limit ≠ none ∨ (brakeAt states time).probe ≠ none →
      8 ≤ ((states time).tickTotals (inputs time)).responsive := by
  refine ⟨?_, ?_, run_engaged run counting⟩
  · intro time
    have tied := run_tied run time
    exact ⟨tied.pacer, tied.floor⟩
  · intro start free length running
    rcases probe_runs run counting free length running with ⟨probe, probing⟩
    rcases (probe_begins run free (running 0 (Nat.zero_le _))).2 with ⟨full, closes, lowered⟩
    refine ⟨⟨full, closes, by rw [probing.limit, lowered]⟩, ?_, ?_⟩
    · have counted := probing.windows
      have left := probing.left
      omega
    · intro ended
      rcases probe_tick run counting probing with ⟨next, more⟩ | ⟨_, cause, given⟩
      · have still := more.running
        rw [← Nat.add_assoc, ended] at still
        cases still
      · exact ⟨cause, given⟩

/-- Answers counted at each of eight resolvers: twenty a second until a probe halves
the rate, and nothing more once it has measured. -/
def pooledAnswers (time : ℕ) : ℕ :=
  if time < 2 then 200 * (time + 1) else min (400 + 100 * (time - 1)) 700

def pooledInputs (time : ℕ) : TickInput 8 :=
  poolInput time (pooledAnswers time) (pooledAnswers time) {}

theorem probes_transparent_pooled :
    ∃ states, ControlRun 1000 pooledInputs states ∧ (brakeAt states 2).limit = some 80 ∧
      (brakeAt states 5).limit = (brakeAt states 1).limit := by
  have positive : (0 : ℚ) < 1000 := by norm_num
  rcases control_run_exists positive pooledInputs with ⟨states, run⟩
  have counting : Counting pooledInputs := by
    intro time i
    have grows : pooledAnswers time ≤ pooledAnswers (time + 1) := by
      unfold pooledAnswers
      split <;> split <;> omega
    exact grows
  have computed : (List.range 6).map (fun time => (controlStates 1000 pooledInputs time).map fun
      control => (control.controller.attempts.limit, control.controller.attempts.probe.isSome)) =
      [some (none, false), some (none, false), some (some 80, true), some (some 80, true),
        some (some 80, true), some (none, false)] := by decide +kernel
  simp only [List.range, List.range.loop, List.map_cons, List.map_nil, control_run_states run,
    Option.map_some, List.cons.injEq, Option.some.injEq, Prod.mk.injEq] at computed
  rcases computed with ⟨_, ⟨_, free⟩, ⟨lowered, second⟩, ⟨_, third⟩, ⟨_, fourth⟩, ⟨_, ended⟩, _⟩
  have running : ∀ later ≤ 2, (brakeAt states (1 + 1 + later)).probe ≠ none := by
    intro later short
    interval_cases later
    · exact Option.isSome_iff_ne_none.mp second
    · exact Option.isSome_iff_ne_none.mp third
    · exact Option.isSome_iff_ne_none.mp fourth
  have restored := (probes_transparent run counting).2.1 1
    (Option.not_isSome_iff_eq_none.mp (by rw [brakeAt, free]; simp)) 2 running
  exact ⟨states, run, lowered,
    (restored.2.2 (Option.not_isSome_iff_eq_none.mp (by rw [brakeAt, ended]; simp))).2⟩

end Runs

end BlastDns.Probes
