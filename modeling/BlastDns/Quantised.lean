import Mathlib.Algebra.Order.Round
import Mathlib.Data.Rat.Floor
import Mathlib.Tactic.Linarith
import Mathlib.Tactic.FieldSimp

/-!
A rate kept as a whole number of clock ticks between events. `ticks` is the
nearest such number, never below one and saturating at `top`; `unit / ticks` is
the rate that is then in force. Reading a rate back and storing it again must
not move it, and nothing between the stored rate and the requested one may
select another number of ticks.
-/

namespace Quantised

def ticks (unit : ℚ) (top : ℕ) (rate : ℚ) : ℕ :=
  min (max (round (unit / rate)).toNat 1) top

variable {unit : ℚ} {top : ℕ}

theorem ticks_pos (room : 1 ≤ top) (rate : ℚ) : 1 ≤ ticks unit top rate :=
  le_min (le_max_right _ _) room

theorem ticks_le_top (rate : ℚ) : ticks unit top rate ≤ top :=
  min_le_right _ _

theorem round_mono {low high : ℚ} (order : low ≤ high) : round low ≤ round high := by
  rw [round_eq, round_eq]
  exact Int.floor_le_floor (by linarith)

theorem ticks_antitone (positive : 0 < unit) {slow fast : ℚ} (moving : 0 < slow)
    (order : slow ≤ fast) : ticks unit top fast ≤ ticks unit top slow := by
  have shorter : unit / fast ≤ unit / slow := div_le_div_of_nonneg_left positive.le moving order
  have rounded : (round (unit / fast)).toNat ≤ (round (unit / slow)).toNat :=
    Int.toNat_le_toNat (round_mono shorter)
  exact min_le_min_right top (max_le_max_right 1 rounded)

/-- A rate read back from a number of ticks selects that number again. -/
theorem ticks_grid (positive : 0 < unit) {count : ℕ} (lower : 1 ≤ count) (upper : count ≤ top) :
    ticks unit top (unit / count) = count := by
  have nonzero : (count : ℚ) ≠ 0 := by
    have : (1 : ℚ) ≤ count := by exact_mod_cast lower
    linarith
  have inverse : unit / (unit / count) = count := by
    field_simp [positive.ne']
  rw [ticks, inverse, round_natCast, Int.toNat_natCast, max_eq_left lower, min_eq_left upper]

/-- No rate between the one in force and the one asked for moves the ticks. -/
theorem ticks_between (positive : 0 < unit) (room : 1 ≤ top) {wanted rate : ℚ}
    (above : unit / ticks unit top wanted ≤ rate) (below : rate ≤ wanted) :
    ticks unit top rate = ticks unit top wanted := by
  have lower : 1 ≤ ticks unit top wanted := ticks_pos room wanted
  have inForce : 0 < unit / (ticks unit top wanted : ℚ) := by
    have : (1 : ℚ) ≤ ticks unit top wanted := by exact_mod_cast lower
    exact div_pos positive (by linarith)
  apply le_antisymm
  · have stored : ticks unit top rate ≤ ticks unit top (unit / ticks unit top wanted) :=
      ticks_antitone positive inForce above
    rwa [ticks_grid positive lower (ticks_le_top wanted)] at stored
  · exact ticks_antitone positive (lt_of_lt_of_le inForce above) below

theorem ticks_lower {rate : ℚ} (fits : unit / rate ≤ top) :
    unit / rate - 1 / 2 < ticks unit top rate := by
  have rounded : unit / rate - 1 / 2 < ((round (unit / rate)).toNat : ℚ) := by
    refine lt_of_lt_of_le (sub_half_lt_round _) ?_
    exact_mod_cast Int.self_le_toNat _
  have bounded : unit / rate - 1 / 2 < (top : ℚ) := by linarith
  rw [ticks, Nat.cast_min, Nat.cast_max]
  exact lt_min (lt_max_of_lt_left rounded) bounded

end Quantised
