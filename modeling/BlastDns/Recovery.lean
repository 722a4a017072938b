import BlastDns.FixedLoss
import BlastDns.WindowAccounts

/-!
The global limit once queries stop failing. The window that is open at that
moment may still hold old failures and be judged by them; every later one shows
no loss at all, which is clear against any baseline, so each of them eases the
limit by a quarter until it is released.
-/

namespace BlastDns.Recovery

open Limiter Judge Brake LaneTick Controller GlobalCeiling ControlRuns CapacityLoop FixedLoss
open WindowAccounts Runs

section Judging

variable {judge : LossJudge} {loss delivered : ℚ}

def BarNonneg (judge : LossJudge) : Prop := ∀ stored, judge.baseline = some stored → 0 ≤ stored

theorem lowered_nonneg (bar : BarNonneg judge) (share : 0 ≤ loss) :
    ∀ stored, judge.lowered loss = some stored → 0 ≤ stored := by
  intro stored lowered
  rcases Option.map_eq_some_iff.mp lowered with ⟨baseline, remembered, rfl⟩
  exact le_min (bar baseline remembered) share

theorem judge_bar_nonneg (bar : BarNonneg judge) (share : 0 ≤ loss) :
    BarNonneg (judge.judge loss delivered).2 := by
  have kept := lowered_nonneg bar share
  rcases judge_cases judge loss delivered with
    ⟨_, judged⟩ | ⟨_, _, judged⟩ | ⟨_, _, _, judged⟩ | ⟨_, _, _, _, judged⟩
  · rw [judged]
    exact kept
  · rw [judged]
    rintro stored same
    cases same
    exact share
  · rw [judged]
    exact kept
  · rw [judged]
    exact kept

theorem judge_without_loss (bar : BarNonneg judge) : (judge.judge 0 delivered).1 = .clear := by
  have above : 0 ≤ judge.baseline.getD 0 := by
    cases stored : judge.baseline with
    | none => exact le_rfl
    | some baseline => exact bar baseline stored
  rcases judge_cases judge 0 delivered with
    ⟨_, judged⟩ | ⟨lossy, _⟩ | ⟨lossy, _⟩ | ⟨lossy, _⟩
  · rw [judged]
  all_goals
    norm_num [lossThreshold] at lossy
    linarith

end Judging

/-- One step up: a quarter more, and no limit once that reaches the ceiling. -/
def eased (ceiling : ℚ) (limit : Option ℚ) : Option ℚ :=
  limit.bind fun limit => if ceiling ≤ limit * (5 / 4) then none else some (limit * (5 / 4))

section Windows

variable {ceiling : ℚ} {full : GlobalBrake}

theorem loss_nonneg (full : GlobalBrake) : 0 ≤ full.loss := by
  rw [GlobalBrake.loss]
  positivity

theorem unfailed_window {after : GlobalBrake} (bar : BarNonneg full.globalJudge)
    (unfailed : full.globalWindow.lost = 0) (judged : full.judgeWindow = some after) :
    after.globalLimit = eased full.globalCeiling full.globalLimit := by
  have lossless : full.loss = 0 := by
    rw [GlobalBrake.loss, unfailed, Nat.cast_zero, zero_div]
  have clear : full.verdict.isCongested = false := by
    rw [GlobalBrake.verdict, lossless, judge_without_loss bar]
    rfl
  have calm : ¬ maxBaselineLoss < full.loss := by
    rw [lossless]
    norm_num [maxBaselineLoss]
  rw [judge_window_quiet clear, if_neg calm, GlobalBrake.ease] at judged
  have standing : (afterVerdict full).globalLimit = full.globalLimit := rfl
  rw [standing] at judged
  cases stored : full.globalLimit with
  | none =>
      rw [stored] at judged
      cases judged
      exact stored
  | some limit =>
      rw [stored] at judged
      dsimp only at judged
      have grown : limit * growth = limit * (5 / 4) := by norm_num [growth]
      rw [grown] at judged
      simp only [eased, Option.bind_some]
      split at judged
      · rename_i reached
        rcases Option.map_eq_some_iff.mp judged with ⟨global, _, rfl⟩
        exact (if_pos reached).symm
      · rename_i short
        rcases Option.map_eq_some_iff.mp judged with ⟨global, _, rfl⟩
        exact (if_neg short).symm

end Windows

section Runs

variable {n : ℕ} {ceiling : ℚ} {inputs : ℕ → TickInput n} {states : ℕ → Control n}

theorem run_bar_nonneg (run : ControlRun ceiling inputs states) (time : ℕ) :
    BarNonneg (states time).controller.globalJudge := by
  induction time with
  | zero =>
      rw [(Control.new_some run.fresh).2.1]
      rintro stored none
      cases none
  | succ time ih =>
      by_cases enough : ClosesWindow (states time) (inputs time)
      · rcases judge_window_moves (tick_closed (run.ticks time) enough) with ⟨limit, global, same⟩
        rw [same]
        have kept : BarNonneg (fullWindow (states time) (inputs time)).globalJudge := ih
        exact judge_bar_nonneg kept (loss_nonneg _)
      · rw [tick_open (run.ticks time) enough]
        exact ih

/-- From `start` on the counter of failed queries stands still. -/
def NoneFail (inputs : ℕ → TickInput n) (start : ℕ) : Prop :=
  ∀ time, start ≤ time → (inputs time).outcomes.failed = (inputs start).outcomes.failed

variable {start : ℕ}

/-- A window that was opened after `start` holds no failure. -/
theorem later_window_unfailed (run : ControlRun ceiling inputs states)
    (spared : NoneFail inputs start) (time : ℕ)
    (judged : judgedBefore inputs states start < judgedBefore inputs states time) :
    (fullWindow (states time) (inputs time)).globalWindow.lost = 0 := by
  induction time with
  | zero => exact absurd judged (Nat.not_lt_zero _)
  | succ time ih =>
      have later : start ≤ time := by
        by_contra early
        exact absurd (judged_before_mono (not_le.mp early)) (not_le.mpr judged)
      have ⟨seen, counts⟩ := tick_global_counts (run.ticks time)
      have carried : (states (time + 1)).controller.globalWindow.lost =
          if (judgedGlobal (states time) (inputs time)).isSome then 0
          else (fullWindow (states time) (inputs time)).globalWindow.lost := counts .failed
      have filled : (fullWindow (states (time + 1)) (inputs (time + 1))).globalWindow.lost =
          (states (time + 1)).controller.globalWindow.lost +
            ((inputs (time + 1)).outcomes.failed -
              (states (time + 1)).controller.previousOutcomes.lost) := rfl
      have still : (inputs (time + 1)).outcomes.failed = (inputs time).outcomes.failed :=
        (spared (time + 1) (Nat.le_succ_of_le later)).trans (spared time later).symm
      rw [filled, seen, still, Nat.sub_self, Nat.add_zero, carried]
      by_cases enough : ClosesWindow (states time) (inputs time)
      · have closed : judgedGlobal (states time) (inputs time) = some _ := if_pos enough
        rw [closed]
        rfl
      · have waits : judgedGlobal (states time) (inputs time) = none := if_neg enough
        rw [judged_before_succ, if_neg enough, Nat.add_zero] at judged
        rw [waits]
        exact ih judged

/-- What the tick at `time` does to the limit once a first window has been judged. -/
theorem later_tick_eases (run : ControlRun ceiling inputs states)
    (spared : NoneFail inputs start) {time : ℕ}
    (judged : judgedBefore inputs states start < judgedBefore inputs states time) :
    (states (time + 1)).controller.globalLimit =
      if ClosesWindow (states time) (inputs time) then
        eased ceiling (states time).controller.globalLimit
      else (states time).controller.globalLimit := by
  by_cases enough : ClosesWindow (states time) (inputs time)
  · rw [if_pos enough]
    have bar : BarNonneg (fullWindow (states time) (inputs time)).globalJudge :=
      run_bar_nonneg run time
    have kept : (fullWindow (states time) (inputs time)).globalCeiling = ceiling :=
      ceiling_kept run time
    have moved := unfailed_window bar (later_window_unfailed run spared time judged)
      (tick_closed (run.ticks time) enough)
    rw [kept] at moved
    exact moved
  · rw [if_neg enough, tick_open (run.ticks time) enough]
    rfl

theorem eased_raises {limit : Option ℚ} (floor : ∀ stored, limit = some stored → 0 ≤ stored)
    (capped : ∀ stored, limit = some stored → stored ≤ ceiling) :
    limit.getD ceiling ≤ (eased ceiling limit).getD ceiling := by
  cases limit with
  | none => exact le_rfl
  | some stored =>
      have nonneg := floor stored rfl
      simp only [eased, Option.bind_some, Option.getD_some]
      split
      · exact capped stored rfl
      · rw [Option.getD_some]
        linarith

/-- As many windows after the first one, as many quarters on top of one query a second. -/
theorem limit_grown (run : ControlRun ceiling inputs states) (unit : 1 ≤ ceiling)
    (spared : NoneFail inputs start) (time windows : ℕ)
    (judged : judgedBefore inputs states time = judgedBefore inputs states start + 1 + windows) :
    ∀ limit, (states time).controller.globalLimit = some limit → (5 / 4) ^ windows ≤ limit := by
  induction time generalizing windows with
  | zero =>
      have none : judgedBefore inputs states 0 = 0 := rfl
      omega
  | succ time ih =>
      intro limit standing
      cases windows with
      | zero =>
          have floor := ((control_run_sound run (time + 1)).1.limited limit standing).1
          rwa [min_eq_left unit, ← pow_zero (5 / 4 : ℚ)] at floor
      | succ windows =>
          rw [judged_before_succ] at judged
          have past : judgedBefore inputs states start < judgedBefore inputs states time := by
            split at judged <;> omega
          rw [later_tick_eases run spared past] at standing
          split at standing
          · rename_i enough
            rw [if_pos enough] at judged
            rcases Option.bind_eq_some_iff.mp standing with ⟨before, stood, grown⟩
            have least := ih windows (by omega) before stood
            split at grown
            · cases grown
            · cases grown
              rw [pow_succ]
              exact mul_le_mul_of_nonneg_right least (by norm_num)
          · rename_i few
            rw [if_neg few] at judged
            exact ih (windows + 1) (by omega) limit standing

theorem ninety_four_quarters : (10 : ℚ) ^ 9 < (5 / 4) ^ 94 := by norm_num

theorem released_after (run : ControlRun ceiling inputs states) (unit : 1 ≤ ceiling)
    (billion : ceiling ≤ 10 ^ 9) (spared : NoneFail inputs start) {time : ℕ}
    (judged : judgedBefore inputs states start + 95 ≤ judgedBefore inputs states time) :
    (states time).controller.globalLimit = none := by
  cases standing : (states time).controller.globalLimit with
  | none => rfl
  | some limit =>
      have capped := ((control_run_sound run time).1.limited limit standing).2.1
      have grown := limit_grown run unit spared time
        (judgedBefore inputs states time - judgedBefore inputs states start - 1) (by omega) limit
        standing
      have many : (5 / 4 : ℚ) ^ 94 ≤ (5 / 4) ^
          (judgedBefore inputs states time - judgedBefore inputs states start - 1) :=
        pow_le_pow_right₀ (by norm_num) (by omega)
      linarith [ninety_four_quarters]

section Progress

/-- From `start` on queries keep finishing. -/
structure KeepsGrowing (inputs : ℕ → TickInput n) (start : ℕ) : Prop where
  ordered : ∀ earlier later, start ≤ earlier → earlier ≤ later →
    (inputs earlier).outcomes.completed ≤ (inputs later).outcomes.completed
  unbounded : ∀ bound, ∃ time, start ≤ time ∧ bound ≤ (inputs time).outcomes.completed

theorem open_window_fills (run : ControlRun ceiling inputs states)
    (growing : KeepsGrowing inputs start) {first : ℕ} (after : start ≤ first)
    (unclosed : ∀ time, first ≤ time → ¬ ClosesWindow (states time) (inputs time)) (time : ℕ)
    (order : first ≤ time) :
    (inputs time).outcomes.completed - (inputs first).outcomes.completed ≤
      (states (time + 1)).controller.globalWindow.attempted := by
  induction time, order using Nat.le_induction with
  | base => omega
  | succ time order ih =>
      have grows := growing.ordered time (time + 1) (le_trans after order) (Nat.le_succ time)
      have seen := (tick_global_counts (run.ticks time)).1
      have filled : (states (time + 2)).controller.globalWindow.attempted =
          (states (time + 1)).controller.globalWindow.attempted +
            ((inputs (time + 1)).outcomes.completed -
              (states (time + 1)).controller.previousOutcomes.attempted) := by
        rw [tick_open (run.ticks (time + 1)) (unclosed (time + 1) (Nat.le_succ_of_le order))]
        rfl
      rw [filled, seen]
      dsimp only
      omega

theorem window_closes_again (run : ControlRun ceiling inputs states)
    (growing : KeepsGrowing inputs start) {first : ℕ} (after : start ≤ first) :
    ∃ time, first ≤ time ∧ ClosesWindow (states time) (inputs time) := by
  by_contra never
  have unclosed : ∀ time, first ≤ time → ¬ ClosesWindow (states time) (inputs time) :=
    fun time order closes => never ⟨time, order, closes⟩
  rcases growing.unbounded ((inputs first).outcomes.completed + 100) with ⟨time, since, far⟩
  have order : first ≤ time := by
    by_contra early
    have fewer := growing.ordered time first since (not_le.mp early).le
    omega
  have filled := open_window_fills run growing after unclosed time order
  have short := open_window_short run (time + 1)
  omega

theorem windows_keep_closing (run : ControlRun ceiling inputs states)
    (growing : KeepsGrowing inputs start) (windows : ℕ) :
    ∃ time, start ≤ time ∧
      judgedBefore inputs states start + windows ≤ judgedBefore inputs states time := by
  induction windows with
  | zero => exact ⟨start, le_rfl, le_rfl⟩
  | succ windows ih =>
      rcases ih with ⟨first, since, judged⟩
      rcases window_closes_again run growing since with ⟨time, order, closes⟩
      have kept : judgedBefore inputs states first ≤ judgedBefore inputs states time :=
        judged_before_mono order
      refine ⟨time + 1, by omega, ?_⟩
      rw [judged_before_succ, if_pos closes]
      omega

end Progress

/-- Once no query fails any more, every judged window but the first eases the limit by
exactly a quarter until it is released, nothing lowers it, and after 95 of them the
limiter runs at the ceiling; as queries keep finishing, they are all judged. -/
theorem global_limit_recovers (run : ControlRun ceiling inputs states) (unit : 1 ≤ ceiling)
    (billion : ceiling ≤ 10 ^ 9) (spared : NoneFail inputs start) :
    (∀ time, judgedBefore inputs states start < judgedBefore inputs states time →
      (states (time + 1)).controller.globalLimit =
        (if ClosesWindow (states time) (inputs time) then
          eased ceiling (states time).controller.globalLimit
        else (states time).controller.globalLimit) ∧
      effectiveLimit (states time).controller.toGlobalBrake ≤
        effectiveLimit (states (time + 1)).controller.toGlobalBrake) ∧
    (∀ time, judgedBefore inputs states start + 95 ≤ judgedBefore inputs states time →
      (states time).controller.globalLimit = none ∧
      (states time).controller.global.intervalNs = pacingInterval ceiling) ∧
    (KeepsGrowing inputs start →
      ∃ time, judgedBefore inputs states start + 95 ≤ judgedBefore inputs states time) := by
  refine ⟨?_, ?_, ?_⟩
  · intro time judged
    have step := later_tick_eases run spared judged
    have agrees := (control_run_sound run time).1
    refine ⟨step, ?_⟩
    rw [effectiveLimit, effectiveLimit, step, ceiling_kept run, ceiling_kept run]
    split
    · apply eased_raises
      · intro limit standing
        have floor := (agrees.limited limit standing).1
        rw [min_eq_left unit] at floor
        linarith
      · intro limit standing
        exact (agrees.limited limit standing).2.1
    · exact le_rfl
  · intro time judged
    have free := released_after run unit billion spared judged
    exact ⟨free, (control_run_sound run time).1.unlimited free⟩
  · intro growing
    rcases windows_keep_closing run growing 95 with ⟨time, _, judged⟩
    exact ⟨time, judged⟩

end Runs

/-- Sixty of each hundred queries fail in two windows, and none after that. -/
def recoveringInputs (time : ℕ) : TickInput 1 :=
  { lossyInputs time with
    outcomes := { completed := 100 * time, failed := min (60 * time) 120 } }

theorem recovering_none_fail : NoneFail recoveringInputs 2 := by
  intro time later
  have many : 120 ≤ 60 * time := by omega
  exact min_eq_right many

theorem recovering_keeps_growing : KeepsGrowing recoveringInputs 2 where
  ordered := by
    intro earlier later _ order
    exact Nat.mul_le_mul_left 100 order
  unbounded := by
    intro bound
    refine ⟨bound + 2, by omega, ?_⟩
    change bound ≤ 100 * (bound + 2)
    omega

/-- The two windows lower the limit to 289/40, and it is gone 95 windows later. -/
theorem global_limit_recovers_lossy :
    ∃ states, ControlRun 1000 recoveringInputs states ∧
      (states 3).controller.globalLimit = some (289 / 40) ∧
      ∃ time, (states time).controller.globalLimit = none ∧
        (states time).controller.global.intervalNs = pacingInterval 1000 ∧
        judgedBefore recoveringInputs states 2 + 95 ≤ judgedBefore recoveringInputs states time := by
  have positive : (0 : ℚ) < 1000 := by norm_num
  rcases control_run_exists positive recoveringInputs with ⟨states, run⟩
  have lowered : (AttemptControl.controlStates 1000 recoveringInputs 3).map (fun control =>
      control.controller.globalLimit) = some (some (289 / 40)) := by
    decide +kernel
  simp only [AttemptControl.control_run_states run, Option.map_some, Option.some.injEq] at lowered
  have recovers := global_limit_recovers run (by norm_num) (by norm_num) recovering_none_fail
  rcases recovers.2.2 recovering_keeps_growing with ⟨time, judged⟩
  have ⟨free, paced⟩ := recovers.2.1 time judged
  exact ⟨states, run, lowered, time, free, paced, judged⟩

end BlastDns.Recovery
