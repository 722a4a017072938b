import BlastDns.Controller

/-!
The global limit is kept twice: as the controller's optional limit and as the
whole nanoseconds of the shared limiter. Both are clamped by the configured
ceiling, which may itself lie below the one query per second that a retreat
never goes under; the clamp by the ceiling comes last and wins.
-/

namespace BlastDns.GlobalCeiling

open Limiter Judge Brake LaneTick Controller

/-- The limiter paces exactly what the controller believes, and both stay under
the ceiling. -/
structure Agrees (ceiling : ℚ) (brake : GlobalBrake) : Prop where
  ceiling_kept : brake.globalCeiling = ceiling
  unlimited : brake.globalLimit = none → brake.global.intervalNs = pacingInterval ceiling
  limited : ∀ limit, brake.globalLimit = some limit →
    min 1 ceiling ≤ limit ∧ limit ≤ ceiling ∧ brake.global.intervalNs = pacingInterval limit

def effectiveLimit (brake : GlobalBrake) : ℚ := brake.globalLimit.getD brake.globalCeiling

/-- What a tick finds in the window it may close. -/
def fullWindow {n : ℕ} (control : Control n) (input : TickInput n) : GlobalBrake :=
  control.controller.toGlobalBrake.accumulate input.outcomes input.seconds
    (control.tickTotals input).attempted

section Steps

variable {ceiling : ℚ} {brake : GlobalBrake}

theorem brake_set_rate {queriesPerSecond : ℚ} (brake : GlobalBrake)
    (positive : 0 < queriesPerSecond) :
    brake.setRate queriesPerSecond =
      some { brake with global := ⟨pacingInterval queriesPerSecond⟩ } := by
  rw [GlobalBrake.setRate, set_rate_pos _ positive, Option.map_some]

theorem floor_pos (positive : 0 < ceiling) : 0 < min 1 ceiling := lt_min one_pos positive

theorem agrees_limited (kept : brake.globalCeiling = ceiling) {limit : ℚ}
    (floor : min 1 ceiling ≤ limit) (capped : limit ≤ ceiling) :
    Agrees ceiling { brake with globalLimit := some limit, global := ⟨pacingInterval limit⟩ } where
  ceiling_kept := kept
  unlimited := by simp
  limited := by
    intro stored same
    cases same
    exact ⟨floor, capped, rfl⟩

theorem retreat_from_agrees (positive : 0 < ceiling) (agrees : Agrees ceiling brake)
    (dispatchRate : ℚ) :
    ∃ after, brake.retreatFrom dispatchRate = some after ∧ Agrees ceiling after ∧
      effectiveLimit after ≤ effectiveLimit brake := by
  let target := min (max (brake.globalLimit.getD dispatchRate * retreat) minRateQps)
    brake.globalCeiling
  have capped : target ≤ ceiling := by
    rw [← agrees.ceiling_kept]
    exact min_le_right _ _
  have floor : min 1 ceiling ≤ target := by
    rw [← agrees.ceiling_kept]
    exact min_le_min_right _ (le_max_right _ _)
  have moved : brake.retreatFrom dispatchRate = some
      { brake with globalLimit := some target, global := ⟨pacingInterval target⟩ } :=
    brake_set_rate { brake with globalLimit := some target }
      (lt_of_lt_of_le (floor_pos positive) floor)
  have lowered : target ≤ effectiveLimit brake := by
    cases stored : brake.globalLimit with
    | none =>
        simp only [effectiveLimit, stored, Option.getD_none]
        exact min_le_right _ _
    | some limit =>
        rcases agrees.limited limit stored with ⟨above, below, _⟩
        simp only [effectiveLimit, stored, Option.getD_some]
        rcases le_or_gt 1 limit with whole | small
        · -- a retreat from at least one query per second stays at or above one
          have scaled : limit * retreat ≤ limit := by
            norm_num [retreat]
            linarith
          have clamped : max (limit * retreat) minRateQps ≤ limit := max_le scaled whole
          calc target ≤ max (limit * retreat) minRateQps := by
                simp only [target, stored, Option.getD_some]
                exact min_le_left _ _
            _ ≤ limit := clamped
        · -- below one the ceiling is the only clamp left
          have low : min 1 ceiling = ceiling := by
            rcases min_choice 1 ceiling with one | low
            · rw [one] at above
              exact absurd above (not_le_of_gt small)
            · exact low
          rw [low] at above
          exact le_trans capped above
  exact ⟨_, moved, agrees_limited agrees.ceiling_kept floor capped, lowered⟩

theorem ease_agrees (positive : 0 < ceiling) (agrees : Agrees ceiling brake) :
    ∃ after, brake.ease = some after ∧ Agrees ceiling after := by
  cases stored : brake.globalLimit with
  | none => exact ⟨brake, by simp [GlobalBrake.ease, stored], agrees⟩
  | some limit =>
      rcases agrees.limited limit stored with ⟨above, _, _⟩
      have limitPos : 0 < limit := lt_of_lt_of_le (floor_pos positive) above
      have grows : limit ≤ limit * growth := by
        norm_num [growth]
        linarith
      by_cases reached : brake.globalCeiling ≤ limit * growth
      · have ceilingPos : 0 < brake.globalCeiling := by rwa [agrees.ceiling_kept]
        have released := brake_set_rate { brake with globalLimit := none } ceilingPos
        refine ⟨_, by simp only [GlobalBrake.ease, stored, if_pos reached]; exact released, ?_⟩
        constructor
        · exact agrees.ceiling_kept
        · intro _
          rw [← agrees.ceiling_kept]
        · simp
      · have raised := brake_set_rate { brake with globalLimit := some (limit * growth) }
          (lt_of_lt_of_le limitPos grows)
        refine ⟨_, by simp only [GlobalBrake.ease, stored, if_neg reached]; exact raised, ?_⟩
        have capped : limit * growth ≤ ceiling := by
          rw [← agrees.ceiling_kept]
          exact (lt_of_not_ge reached).le
        exact agrees_limited agrees.ceiling_kept (le_trans above grows) capped

structure Restrained (full after : GlobalBrake) : Prop where
  congested : full.verdict.isCongested = true → effectiveLimit after ≤ effectiveLimit full
  lossy : full.verdict.isCongested = false → maxBaselineLoss < full.loss →
    effectiveLimit after ≤ effectiveLimit full

def afterVerdict (brake : GlobalBrake) : GlobalBrake :=
  { brake.resetWindow with
    globalJudge := (brake.globalJudge.judge brake.loss brake.delivered).2 }

theorem judge_window_congested (congested : brake.verdict.isCongested = true) :
    brake.judgeWindow = (afterVerdict brake).retreatFrom brake.dispatchRate := by
  rw [GlobalBrake.judgeWindow]
  cases verdict : brake.verdict with
  | congested converging =>
      rw [GlobalBrake.verdict] at verdict
      rw [verdict]
      rfl
  | clear => simp [verdict, Verdict.isCongested] at congested
  | baseline => simp [verdict, Verdict.isCongested] at congested

theorem judge_window_quiet (quiet : brake.verdict.isCongested = false) :
    brake.judgeWindow =
      if maxBaselineLoss < brake.loss then some (afterVerdict brake)
      else (afterVerdict brake).ease := by
  rw [GlobalBrake.judgeWindow]
  cases verdict : brake.verdict with
  | congested converging => simp [verdict, Verdict.isCongested] at quiet
  | clear =>
      rw [GlobalBrake.verdict] at verdict
      rw [verdict]
      rfl
  | baseline =>
      rw [GlobalBrake.verdict] at verdict
      rw [verdict]
      rfl

/-- Whatever the verdict, only the limit and the limiter move beyond it. -/
theorem judge_window_moves {after : GlobalBrake} (judged : brake.judgeWindow = some after) :
    ∃ limit global, after = { afterVerdict brake with globalLimit := limit, global := global } := by
  have paced : ∀ (start : GlobalBrake) (rate : ℚ) (limit : Option ℚ),
      { start with globalLimit := limit }.setRate rate = some after →
        ∃ limit global, after = { start with globalLimit := limit, global := global } := by
    intro start rate limit stored
    rcases Option.map_eq_some_iff.mp stored with ⟨global, _, same⟩
    exact ⟨limit, global, same.symm⟩
  cases quiet : brake.verdict.isCongested with
  | true =>
      rw [judge_window_congested quiet] at judged
      exact paced _ _ _ judged
  | false =>
      rw [judge_window_quiet quiet] at judged
      split at judged
      · cases judged
        exact ⟨_, _, rfl⟩
      · rw [GlobalBrake.ease] at judged
        split at judged
        · cases judged
          exact ⟨_, _, rfl⟩
        · dsimp only at judged
          split at judged
          · exact paced _ _ _ judged
          · exact paced _ _ _ judged

theorem judge_window_agrees (positive : 0 < ceiling) (agrees : Agrees ceiling brake) :
    ∃ after, brake.judgeWindow = some after ∧ Agrees ceiling after ∧ Restrained brake after := by
  -- judging closes the window and moves neither the limit nor the limiter
  have kept : Agrees ceiling (afterVerdict brake) :=
    ⟨agrees.ceiling_kept, agrees.unlimited, agrees.limited⟩
  cases quiet : brake.verdict.isCongested with
  | true =>
      rcases retreat_from_agrees positive kept brake.dispatchRate with
        ⟨after, moved, agreed, lowered⟩
      refine ⟨after, by rw [judge_window_congested quiet, moved], agreed, ?_⟩
      constructor
      · intro _
        exact lowered
      · intro calm
        simp [quiet] at calm
  | false =>
      by_cases lossy : maxBaselineLoss < brake.loss
      · refine ⟨afterVerdict brake, by rw [judge_window_quiet quiet, if_pos lossy], kept, ?_⟩
        exact ⟨fun _ => le_rfl, fun _ _ => le_rfl⟩
      · rcases ease_agrees positive kept with ⟨after, eased, agreed⟩
        refine ⟨after, by rw [judge_window_quiet quiet, if_neg lossy, eased], agreed, ?_⟩
        constructor
        · intro congested
          simp [quiet] at congested
        · intro _ bad
          exact absurd bad lossy

theorem adjust_global_agrees (positive : 0 < ceiling) (agrees : Agrees ceiling brake)
    (outcomes : Outcomes) (seconds : ℚ) (attempted : ℕ) :
    ∃ after, brake.adjustGlobal outcomes seconds attempted = some after ∧ Agrees ceiling after ∧
      let full := brake.accumulate outcomes seconds attempted
      (full.globalWindow.attempted < minAggregateSamples → after = full) ∧
      (minAggregateSamples ≤ full.globalWindow.attempted → Restrained full after) := by
  let full := brake.accumulate outcomes seconds attempted
  have kept : Agrees ceiling full := ⟨agrees.ceiling_kept, agrees.unlimited, agrees.limited⟩
  by_cases few : full.globalWindow.attempted < minAggregateSamples
  · refine ⟨full, if_pos few, kept, fun _ => rfl, ?_⟩
    intro enough
    exact absurd few (not_lt_of_ge enough)
  · rcases judge_window_agrees positive kept with ⟨after, judged, agreed, restrained⟩
    have same : brake.adjustGlobal outcomes seconds attempted = some after := by
      rw [← judged]
      exact if_neg few
    exact ⟨after, same, agreed, fun bad => absurd bad few, fun _ => restrained⟩

/-- The pacing is never tighter than what the ceiling itself gives. -/
theorem agrees_interval (positive : 0 < ceiling) (agrees : Agrees ceiling brake) :
    pacingInterval ceiling ≤ brake.global.intervalNs := by
  cases stored : brake.globalLimit with
  | none => exact (agrees.unlimited stored).ge
  | some limit =>
      rcases agrees.limited limit stored with ⟨above, below, same⟩
      rw [same]
      exact pacing_interval_antitone (lt_of_lt_of_le (floor_pos positive) above) below

end Steps

end BlastDns.GlobalCeiling
