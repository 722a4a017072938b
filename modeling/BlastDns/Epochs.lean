import Mathlib.Algebra.BigOperators.Intervals
import Mathlib.Algebra.Order.BigOperators.Group.Finset

/-!
A quantity measured in windows. Every step adds an increment to the open
window, and some steps then close it, which starts the next one empty. What
was added is split between the windows closed so far and the open one, and the
open one holds exactly what was added since it was opened.
-/

namespace Epochs

variable {M : Type} [AddCommMonoid M]

/-- `level` is what the open window holds of `delta` when `closes` says which
steps close it. -/
structure Windowed (delta level : ℕ → M) (closes : ℕ → Bool) : Prop where
  start : level 0 = 0
  step : ∀ time, level (time + 1) = if closes time then 0 else level time + delta time

/-- The sum over all windows closed before `time`, each with the increment of the
step that closed it. -/
def closedSum (delta level : ℕ → M) (closes : ℕ → Bool) (time : ℕ) : M :=
  ∑ step ∈ Finset.range time with closes step, (level step + delta step)

def opened (closes : ℕ → Bool) : ℕ → ℕ
  | 0 => 0
  | time + 1 => if closes time then time + 1 else opened closes time

variable {delta level : ℕ → M} {closes : ℕ → Bool}

theorem closed_sum_succ (time : ℕ) :
    closedSum delta level closes (time + 1) =
      closedSum delta level closes time + if closes time then level time + delta time else 0 := by
  simp only [closedSum, Finset.sum_filter, Finset.sum_range_succ]

theorem opened_le (closes : ℕ → Bool) (time : ℕ) : opened closes time ≤ time := by
  induction time with
  | zero => exact le_rfl
  | succ time ih =>
      rw [opened]
      split
      · exact le_rfl
      · exact le_trans ih (Nat.le_succ time)

/-- Nothing is lost between windows and nothing is in two of them. -/
theorem closed_add_open (windowed : Windowed delta level closes) (time : ℕ) :
    closedSum delta level closes time + level time = ∑ step ∈ Finset.range time, delta step := by
  induction time with
  | zero => simp [closedSum, windowed.start]
  | succ time ih =>
      rw [Finset.sum_range_succ, ← ih, closed_sum_succ, windowed.step]
      cases closes time with
      | true => simp [add_assoc]
      | false => simp [add_assoc]

theorem level_since_opened (windowed : Windowed delta level closes) (time : ℕ) :
    level time = ∑ step ∈ Finset.Ico (opened closes time) time, delta step := by
  induction time with
  | zero => simp [windowed.start]
  | succ time ih =>
      rw [windowed.step, opened]
      cases closes time with
      | true => simp
      | false =>
          simp only [Bool.false_eq_true, if_false]
          rw [Finset.sum_Ico_succ_top (opened_le closes time), ← ih]

theorem closed_add_open_counter {reading level : ℕ → ℕ} (counts : Monotone reading)
    (fresh : reading 0 = 0)
    (windowed : Windowed (fun step => reading (step + 1) - reading step) level closes) (time : ℕ) :
    closedSum (fun step => reading (step + 1) - reading step) level closes time + level time =
      reading time := by
  rw [closed_add_open windowed, Finset.sum_range_tsub counts, fresh, Nat.sub_zero]

end Epochs
