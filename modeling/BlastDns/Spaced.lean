import Mathlib.Algebra.Order.Field.Rat
import Mathlib.Data.List.Basic
import Mathlib.Tactic.Linarith
import Mathlib.Tactic.Ring

/-!
Events that keep their distance. If each of a sequence of events comes at least
`gap` after all those before it, a window of any length holds at most one more
than the number of gaps that fit into it.
-/

namespace Spaced

variable {Item : Type}

def Apart (gap : ℚ) (time : Item → ℚ) (items : List Item) : Prop :=
  items.Pairwise fun early late => time early + gap ≤ time late

variable {gap : ℚ} {time : Item → ℚ}

theorem apart_filter {items : List Item} (apart : Apart gap time items) (kept : Item → Bool) :
    Apart gap time (items.filter kept) :=
  List.Pairwise.filter kept apart

theorem gaps_fit (nonneg : 0 ≤ gap) {items : List Item} (apart : Apart gap time items)
    {low length : ℚ} (fits : 0 ≤ length)
    (inside : ∀ item ∈ items, low ≤ time item ∧ time item ≤ low + length) :
    ((items.length : ℚ) - 1) * gap ≤ length := by
  induction items generalizing low length with
  | nil =>
      rw [List.length_nil, Nat.cast_zero]
      linarith
  | cons first rest ih =>
      rcases List.pairwise_cons.mp apart with ⟨after, apartRest⟩
      have start := inside first List.mem_cons_self
      cases rest with
      | nil => simpa using fits
      | cons second others =>
          -- the rest lies in what is left of the window one gap later
          have next := inside second (List.mem_cons_of_mem first List.mem_cons_self)
          have step := after second List.mem_cons_self
          have moved : ∀ item ∈ second :: others,
              low + gap ≤ time item ∧ time item ≤ low + gap + (length - gap) := by
            intro item member
            have later := after item member
            have window := inside item (List.mem_cons_of_mem first member)
            exact ⟨by linarith, by linarith⟩
          have tail := ih apartRest (by linarith) moved
          rw [List.length_cons, Nat.cast_add, Nat.cast_one]
          linarith

/-- A window of length `length` holds at most `length / gap + 1` items. -/
theorem window_count (positive : 0 < gap) {items : List Item} (apart : Apart gap time items)
    {low length : ℚ} (fits : 0 ≤ length)
    (inside : ∀ item ∈ items, low ≤ time item ∧ time item ≤ low + length) :
    (items.length : ℚ) ≤ length / gap + 1 := by
  have gaps := gaps_fit positive.le apart fits inside
  have divided : (items.length : ℚ) - 1 ≤ length / gap := (le_div_iff₀ positive).mpr gaps
  linarith

end Spaced
