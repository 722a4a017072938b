import BlastDns.Judge
import Mathlib.Data.Nat.Find
import Mathlib.Tactic.NormNum

/-!
Retreats end. A verdict other than clear spends a budget: inside an episode the
best loss must fall by a hundredth at least every other window and cannot pass
the threshold, and each baseline verdict lifts the bar by more than the
threshold towards a loss of one. The budget is a number computed from the
judge's own fields.
-/

namespace BlastDns.JudgeProgress

open Judge

/-- States the controller can bring a judge into: calls with a loss share, and
the `end_episode` of an expired edge. -/
inductive Reachable : LossJudge → Prop where
  | fresh : Reachable {}
  | judged {judge : LossJudge} (loss delivered : ℚ) : 0 ≤ loss → loss ≤ 1 →
      Reachable judge → Reachable (judge.judge loss delivered).2
  | expired {judge : LossJudge} : Reachable judge → Reachable judge.endEpisode

def verdicts : LossJudge → List (ℚ × ℚ) → List Verdict
  | _, [] => []
  | judge, (loss, delivered) :: rest =>
      (judge.judge loss delivered).1 :: verdicts (judge.judge loss delivered).2 rest

def Share (call : ℚ × ℚ) : Prop := 0 ≤ call.1 ∧ call.1 ≤ 1

structure Sound (judge : LossJudge) : Prop where
  baseline : ∀ stored ∈ judge.baseline, 0 ≤ stored ∧ stored ≤ 1
  best : ∀ least ∈ judge.best, least ≤ 1
  stalled : judge.stalled ≤ 1

def rounds (bar : ℚ) : ℕ := ⌊(1 - bar) * 50⌋.toNat

def descents (best : ℚ) : ℕ :=
  Nat.findGreatest (fun count => lossThreshold < (99 / 100) ^ count * best) 389

def windowsLeft (judge : LossJudge) : ℕ :=
  match judge.best with
  | none => 780
  | some best => 2 * descents best + (1 - judge.stalled)

def budget (judge : LossJudge) : ℕ :=
  781 * rounds (judge.baseline.getD 0) + windowsLeft judge

theorem descents_le (best : ℚ) : descents best ≤ 389 :=
  Nat.findGreatest_le 389

theorem windows_left_le (judge : LossJudge) : windowsLeft judge ≤ 780 := by
  unfold windowsLeft
  cases judge.best with
  | none => exact le_rfl
  | some best =>
      have := descents_le best
      simp only
      omega

theorem descents_mono {low high : ℚ} (order : low ≤ high) : descents low ≤ descents high := by
  apply Nat.findGreatest_mono_left
  intro count left
  refine lt_of_lt_of_le left ?_
  exact mul_le_mul_of_nonneg_left order (by positivity)

theorem descents_spec {best : ℚ} (visible : lossThreshold < best) :
    lossThreshold < (99 / 100) ^ descents best * best := by
  have first : lossThreshold < (99 / 100 : ℚ) ^ 0 * best := by simpa using visible
  exact Nat.findGreatest_spec (P := fun count => lossThreshold < (99 / 100 : ℚ) ^ count * best)
    (Nat.zero_le 389) first

theorem descents_exhausted : (99 / 100 : ℚ) ^ 390 ≤ lossThreshold := by
  have half : (99 / 100 : ℚ) ^ 195 ≤ 1412 / 10000 := by norm_num
  calc (99 / 100 : ℚ) ^ 390 = ((99 / 100) ^ 195) ^ 2 := by rw [← pow_mul]
    _ ≤ (1412 / 10000) ^ 2 := pow_le_pow_left₀ (by positivity) half 2
    _ ≤ lossThreshold := by norm_num [lossThreshold]

theorem descents_improve {best loss : ℚ} (share : best ≤ 1) (visible : lossThreshold < loss)
    (improved : loss < best * retreatMustImprove) : descents loss + 1 ≤ descents best := by
  have further : lossThreshold < (99 / 100) ^ (descents loss + 1) * best := by
    have reached := descents_spec visible
    have power : (0 : ℚ) < (99 / 100) ^ descents loss := by positivity
    have smaller : (99 / 100) ^ descents loss * loss ≤
        (99 / 100) ^ descents loss * (best * retreatMustImprove) :=
      mul_le_mul_of_nonneg_left improved.le power.le
    rw [retreatMustImprove] at smaller
    rw [pow_succ]
    linarith
  -- the search bound of `descents` is not what stops it
  have room : descents loss + 1 ≤ 389 := by
    by_contra full
    have count : 390 = descents loss + 1 := by
      have := descents_le loss
      omega
    rw [← count] at further
    have spent : (99 / 100 : ℚ) ^ 390 * best ≤ (99 / 100) ^ 390 :=
      mul_le_of_le_one_right (by positivity) share
    exact absurd further (not_lt.mpr (spent.trans descents_exhausted))
  exact Nat.le_findGreatest room further

theorem rounds_spent {bar loss : ℚ} (share : loss ≤ 1) (above : bar + lossThreshold < loss) :
    rounds loss + 1 ≤ rounds bar := by
  have gap : (1 - loss) * 50 + 1 ≤ (1 - bar) * 50 := by
    rw [lossThreshold] at above
    linarith
  have floors : ⌊(1 - loss) * 50⌋ + 1 ≤ ⌊(1 - bar) * 50⌋ := by
    rw [← Int.floor_add_one]
    exact Int.floor_le_floor gap
  have nonneg : 0 ≤ ⌊(1 - loss) * 50⌋ := Int.floor_nonneg.mpr (by linarith)
  unfold rounds
  omega

theorem lowered_above {judge : LossJudge} {loss : ℚ}
    (above : judge.baseline.getD 0 + lossThreshold < loss) :
    judge.lowered loss = judge.baseline := by
  unfold LossJudge.lowered
  cases stored : judge.baseline with
  | none => rfl
  | some baseline =>
      simp only [stored, Option.getD_some, lossThreshold] at above
      simp only [Option.map_some, Option.some.injEq, min_eq_left_iff]
      linarith

theorem bar_nonneg {judge : LossJudge} (sound : Sound judge) : 0 ≤ judge.baseline.getD 0 := by
  cases stored : judge.baseline with
  | none => simp
  | some baseline => exact (sound.baseline baseline stored).1

theorem sound_extend {judge : LossJudge} (sound : Sound judge) {loss : ℚ} (delivered : ℚ)
    (share : loss ≤ 1) (above : judge.baseline.getD 0 + lossThreshold < loss) {stalled : ℕ}
    (few : stalled ≤ 1) : Sound (judge.extend loss delivered stalled) where
  baseline := by
    rw [LossJudge.extend, lowered_above above]
    exact sound.baseline
  best := by
    intro least member
    simp only [LossJudge.extend, Option.mem_some_iff] at member
    subst member
    cases judge.best with
    | none => exact share
    | some best => exact (min_le_right _ _).trans share
  stalled := few

theorem sound_judged {judge : LossJudge} (sound : Sound judge) {loss : ℚ} (delivered : ℚ)
    (nonneg : 0 ≤ loss) (share : loss ≤ 1) : Sound (judge.judge loss delivered).2 := by
  rcases judge_cases judge loss delivered with
    ⟨_, same⟩ | ⟨_, _, same⟩ | ⟨above, _, _, same⟩ | ⟨above, _, _, _, same⟩ <;> rw [same]
  · refine ⟨?_, by simp, Nat.zero_le 1⟩
    intro stored member
    obtain ⟨baseline, known, low⟩ := Option.map_eq_some_iff.mp member
    obtain ⟨lower, upper⟩ := sound.baseline baseline known
    subst low
    exact ⟨le_min lower nonneg, (min_le_right _ _).trans share⟩
  · refine ⟨?_, by simp, Nat.zero_le 1⟩
    intro stored member
    obtain rfl := Option.some.inj member
    exact ⟨nonneg, share⟩
  · exact sound_extend sound delivered share above (Nat.zero_le 1)
  · exact sound_extend sound delivered share above le_rfl

theorem reachable_sound {judge : LossJudge} (reached : Reachable judge) : Sound judge := by
  induction reached with
  | fresh => exact ⟨by simp, by simp, Nat.zero_le 1⟩
  | judged loss delivered nonneg share _ ih => exact sound_judged ih delivered nonneg share
  | expired _ ih => exact ⟨ih.baseline, by simp [LossJudge.endEpisode], Nat.zero_le 1⟩

/-- A congested verdict uses up one window of its episode and leaves the bar. -/
theorem congested_spends {judge : LossJudge} (sound : Sound judge) {loss delivered : ℚ}
    (congested : (judge.judge loss delivered).1.isCongested = true) :
    windowsLeft (judge.judge loss delivered).2 + 1 ≤ windowsLeft judge ∧
      (judge.judge loss delivered).2.baseline = judge.baseline := by
  have bar := bar_nonneg sound
  rcases judge_cases judge loss delivered with
    ⟨_, same⟩ | ⟨_, _, same⟩ | ⟨above, _, improved, same⟩ | ⟨above, _, flat, fresh, same⟩ <;>
    rw [same] at congested ⊢
  · cases congested
  · cases congested
  · have visible : lossThreshold < loss := by linarith
    refine ⟨?_, lowered_above above⟩
    cases known : judge.best with
    | none =>
        -- the window that opens an episode is paid from the fixed allowance
        have := descents_le loss
        simp only [windowsLeft, LossJudge.extend, known]
        omega
    | some best =>
        have fell : loss < best * retreatMustImprove := by
          simpa [LossJudge.improving, known] using improved
        have fewer := descents_improve (sound.best best known) visible fell
        have lower := descents_mono (min_le_right best loss)
        simp only [windowsLeft, LossJudge.extend, known]
        omega
  · refine ⟨?_, lowered_above above⟩
    cases known : judge.best with
    | none => simp [LossJudge.improving, known] at flat
    | some best =>
        -- a flat window uses up the half step that `stalled` stands for
        have lower := descents_mono (min_le_left best loss)
        simp only [windowsLeft, LossJudge.extend, known, fresh]
        omega

theorem unclear_spends {judge : LossJudge} (sound : Sound judge) {loss delivered : ℚ}
    (share : loss ≤ 1) (unclear : (judge.judge loss delivered).1 ≠ .clear) :
    budget (judge.judge loss delivered).2 + 1 ≤ budget judge := by
  cases verdict : (judge.judge loss delivered).1 with
  | clear => exact absurd verdict unclear
  | congested converging =>
      obtain ⟨fewer, kept⟩ := congested_spends sound
        (show (judge.judge loss delivered).1.isCongested = true by rw [verdict]; rfl)
      rw [budget, budget, kept]
      omega
  | baseline =>
      rcases judge_cases judge loss delivered with
        ⟨_, same⟩ | ⟨above, _, same⟩ | ⟨_, _, _, same⟩ | ⟨_, _, _, _, same⟩ <;>
        rw [same] at verdict ⊢ <;> cases verdict
      -- a fresh episode costs less than the round its baseline has spent
      have spent := rounds_spent share above
      simp only [budget, windowsLeft, Option.getD_some]
      omega

theorem budget_le {judge : LossJudge} (sound : Sound judge) : budget judge ≤ 39830 := by
  have bar := bar_nonneg sound
  have few : rounds (judge.baseline.getD 0) ≤ 50 := by
    have upper : ⌊(1 - judge.baseline.getD 0) * 50⌋ ≤ (50 : ℤ) :=
      Int.floor_le_iff.mpr (by push_cast; linarith)
    unfold rounds
    omega
  have := windows_left_le judge
  unfold budget
  omega

/-- Once the calls outnumber the budget, one of them has come back clear. -/
theorem clear_within_budget (calls : List (ℚ × ℚ)) (judge : LossJudge) (sound : Sound judge)
    (shares : ∀ call ∈ calls, Share call) (long : budget judge < calls.length) :
    .clear ∈ verdicts judge calls := by
  induction calls generalizing judge with
  | nil => exact absurd long (Nat.not_lt_zero _)
  | cons call rest ih =>
      obtain ⟨loss, delivered⟩ := call
      obtain ⟨nonneg, share⟩ : 0 ≤ loss ∧ loss ≤ 1 := shares _ List.mem_cons_self
      simp only [verdicts, List.mem_cons]
      by_cases clear : (judge.judge loss delivered).1 = .clear
      · exact Or.inl clear.symm
      · have spent := unclear_spends sound share clear
        refine Or.inr (ih _ (sound_judged sound delivered nonneg share)
          (fun next member => shares next (List.mem_cons_of_mem _ member)) ?_)
        simp only [List.length_cons] at long
        omega

theorem congested_block_le (calls : List (ℚ × ℚ)) (judge : LossJudge) (sound : Sound judge)
    (shares : ∀ call ∈ calls, Share call)
    (unbroken : ∀ verdict ∈ verdicts judge calls, verdict.isCongested = true) :
    calls.length ≤ windowsLeft judge := by
  induction calls generalizing judge with
  | nil => exact Nat.zero_le _
  | cons call rest ih =>
      obtain ⟨loss, delivered⟩ := call
      obtain ⟨nonneg, share⟩ : 0 ≤ loss ∧ loss ≤ 1 := shares _ List.mem_cons_self
      simp only [verdicts, List.forall_mem_cons] at unbroken
      have spent := (congested_spends sound unbroken.1).1
      have tail := ih _ (sound_judged sound delivered nonneg share)
        (fun next member => shares next (List.mem_cons_of_mem _ member)) unbroken.2
      simp only [List.length_cons]
      omega

/-- Forty thousand calls in a row always include a clear one, and no unbroken
block of congested verdicts is longer than 780 windows. -/
theorem retreats_end (judge : LossJudge) (reached : Reachable judge) :
    (∀ calls : List (ℚ × ℚ), calls.length = 40000 → (∀ call ∈ calls, Share call) →
      .clear ∈ verdicts judge calls) ∧
    (∀ calls : List (ℚ × ℚ), (∀ call ∈ calls, Share call) →
      (∀ verdict ∈ verdicts judge calls, verdict.isCongested = true) → calls.length ≤ 780) := by
  have sound := reachable_sound reached
  constructor
  · intro calls long shares
    have spent := budget_le sound
    exact clear_within_budget calls judge sound shares (by omega)
  · intro calls shares unbroken
    exact (congested_block_le calls judge sound shares unbroken).trans (windows_left_le judge)

theorem retreats_end_total_loss :
    Verdict.clear ∈ verdicts (LossJudge.judge {} 1 0).2 (List.replicate 40000 (1, 0)) := by
  refine (retreats_end _ (.judged 1 0 zero_le_one le_rfl .fresh)).1 _ List.length_replicate ?_
  intro call member
  obtain rfl := List.eq_of_mem_replicate member
  exact ⟨zero_le_one, le_rfl⟩

end BlastDns.JudgeProgress
