import Mathlib.Data.Rat.Floor
import Mathlib.Tactic.Linarith

/-!
`LossJudge` of `src/controller.rs`: four summarised fields decide what one
window of loss is worth. Loss and answered rate are exact rationals. `judge`
follows the source statement by statement, including the baseline update that
precedes the first test and the two early returns.
-/

namespace BlastDns.Judge

def lossThreshold : ℚ := 2 / 100
def retreatMustImprove : ℚ := 99 / 100
def retreatMustDeliver : ℚ := 95 / 100
def stallTicks : ℕ := 2

inductive Verdict where
  | congested (converging : Bool)
  | clear
  | baseline
  deriving DecidableEq

def Verdict.isCongested : Verdict → Bool
  | .congested _ => true
  | .clear | .baseline => false

structure LossJudge where
  best : Option ℚ := none
  bestDelivered : Option ℚ := none
  stalled : ℕ := 0
  baseline : Option ℚ := none
  deriving DecidableEq

namespace LossJudge

def endEpisode (judge : LossJudge) : LossJudge :=
  { judge with best := none, bestDelivered := none, stalled := 0 }

def improving (judge : LossJudge) (loss : ℚ) : Bool :=
  match judge.best with
  | some best => loss < best * retreatMustImprove
  | none => true

def paying (judge : LossJudge) (delivered : ℚ) : Bool :=
  match judge.bestDelivered with
  | some best => best * retreatMustDeliver ≤ delivered
  | none => true

/-- The baseline follows the loss down before anything is tested against it. -/
def lowered (judge : LossJudge) (loss : ℚ) : Option ℚ :=
  judge.baseline.map fun baseline => min baseline loss

def judge (self : LossJudge) (loss delivered : ℚ) : Verdict × LossJudge :=
  let self := { self with baseline := self.lowered loss }
  if loss ≤ self.baseline.getD 0 + lossThreshold then
    (.clear, self.endEpisode)
  else
    let improving := self.improving loss
    let paying := self.paying delivered
    let converging := self.best.isSome && improving && paying
    -- u8 saturating_add
    let stalled := if improving && paying then 0 else min (self.stalled + 1) 255
    if !(improving && paying) && (!paying || stallTicks ≤ stalled) then
      (.baseline, { self with baseline := some loss }.endEpisode)
    else
      (.congested converging,
        { self with
          stalled := stalled
          best := some (match self.best with
            | some best => min best loss
            | none => loss)
          bestDelivered := some (match self.bestDelivered with
            | some best => max best delivered
            | none => delivered) })

end LossJudge

/-- One window of an open episode: the summary after a congested verdict. -/
def LossJudge.extend (judge : LossJudge) (loss delivered : ℚ) (stalled : ℕ) : LossJudge :=
  { best := some (match judge.best with
      | some best => min best loss
      | none => loss)
    bestDelivered := some (match judge.bestDelivered with
      | some best => max best delivered
      | none => delivered)
    stalled := stalled
    baseline := judge.lowered loss }

theorem lowered_clear (judge : LossJudge) (loss : ℚ) :
    loss ≤ (judge.lowered loss).getD 0 + lossThreshold ↔
      loss ≤ judge.baseline.getD 0 + lossThreshold := by
  cases stored : judge.baseline with
  | none => simp [LossJudge.lowered, stored]
  | some baseline =>
      simp only [LossJudge.lowered, stored, Option.map_some, Option.getD_some]
      -- the lowered baseline is the old one, or the loss itself, which then is clear
      constructor
      · intro below
        exact le_trans below (by linarith [min_le_left baseline loss])
      · intro below
        rcases min_choice baseline loss with low | low
        · rwa [low]
        · rw [low]
          norm_num [lossThreshold]

/-- Everything one call can do: clear, close the episode as a baseline, carry on
improving, or tolerate a first flat window. -/
theorem judge_cases (judge : LossJudge) (loss delivered : ℚ) :
    (loss ≤ judge.baseline.getD 0 + lossThreshold ∧
      judge.judge loss delivered = (.clear, { baseline := judge.lowered loss })) ∨
    (judge.baseline.getD 0 + lossThreshold < loss ∧
      (judge.paying delivered = false ∨ judge.improving loss = false ∧ 1 ≤ judge.stalled) ∧
      judge.judge loss delivered = (.baseline, { baseline := some loss })) ∨
    (judge.baseline.getD 0 + lossThreshold < loss ∧
      judge.paying delivered = true ∧ judge.improving loss = true ∧
      judge.judge loss delivered =
        (.congested judge.best.isSome, judge.extend loss delivered 0)) ∨
    (judge.baseline.getD 0 + lossThreshold < loss ∧
      judge.paying delivered = true ∧ judge.improving loss = false ∧ judge.stalled = 0 ∧
      judge.judge loss delivered = (.congested false, judge.extend loss delivered 1)) := by
  by_cases below : loss ≤ judge.baseline.getD 0 + lossThreshold
  · have tested := (lowered_clear judge loss).mpr below
    exact Or.inl ⟨below, by simp [LossJudge.judge, tested, LossJudge.endEpisode]⟩
  · have tested : ¬ loss ≤ (judge.lowered loss).getD 0 + lossThreshold :=
      fun clear => below ((lowered_clear judge loss).mp clear)
    have above := lt_of_not_ge below
    have sameImproving : LossJudge.improving
        { judge with baseline := judge.lowered loss } loss = judge.improving loss := rfl
    have samePaying : LossJudge.paying
        { judge with baseline := judge.lowered loss } delivered = judge.paying delivered := rfl
    refine Or.inr ?_
    cases pays : judge.paying delivered with
    | false =>
        refine Or.inl ⟨above, Or.inl rfl, ?_⟩
        simp [LossJudge.judge, tested, samePaying, pays, LossJudge.endEpisode]
    | true =>
        cases improves : judge.improving loss with
        | true =>
            refine Or.inr (Or.inl ⟨above, rfl, rfl, ?_⟩)
            simp [LossJudge.judge, tested, sameImproving, samePaying, pays, improves,
              LossJudge.extend]
        | false =>
            by_cases flat : 1 ≤ judge.stalled
            · refine Or.inl ⟨above, Or.inr ⟨rfl, flat⟩, ?_⟩
              simp [LossJudge.judge, tested, sameImproving, samePaying, pays, improves,
                LossJudge.endEpisode, stallTicks]
              omega
            · have zero : judge.stalled = 0 := by omega
              refine Or.inr (Or.inr ⟨above, rfl, rfl, zero, ?_⟩)
              simp only [LossJudge.judge, tested, sameImproving, samePaying, pays, improves]
              simp [zero, LossJudge.extend, stallTicks]

end BlastDns.Judge
