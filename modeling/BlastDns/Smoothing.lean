import Mathlib.Data.List.Basic
import Mathlib.Order.Monotone.Basic
import Mathlib.Tactic.Positivity

/-!
Integer averages by shifts: the new value keeps all but one part in `2 ^ shift` of the
old one and takes that part of the sample. The two parts are truncated apart, and yet
the average never leaves the range of what went into it, because what is kept grows
with the value it is kept of.
-/

namespace Smoothing

def average (shift previous sample : ℕ) : ℕ := previous - previous >>> shift + sample >>> shift

theorem kept_mono (shift : ℕ) : Monotone fun value => value - value >>> shift := by
  apply monotone_nat_of_le_succ
  intro value
  have room : 0 < 2 ^ shift := by positivity
  -- a quotient grows by at most one when its dividend does
  have slow : (value + 1) / 2 ^ shift ≤ value / 2 ^ shift + 1 := by
    rw [← Nat.add_div_right value room]
    exact Nat.div_le_div_right (by omega)
  have small := Nat.div_le_self value (2 ^ shift)
  simp only [Nat.shiftRight_eq_div_pow]
  omega

theorem shift_mono (shift : ℕ) : Monotone fun value : ℕ => value >>> shift := by
  intro less more order
  simp only [Nat.shiftRight_eq_div_pow]
  exact Nat.div_le_div_right order

theorem average_mono (shift : ℕ) {less more low high : ℕ} (previous : less ≤ more)
    (sample : low ≤ high) : average shift less low ≤ average shift more high :=
  Nat.add_le_add (kept_mono shift previous) (shift_mono shift sample)

/-- A value averaged with itself stays where it is. -/
theorem average_self (shift value : ℕ) : average shift value value = value :=
  Nat.sub_add_cancel (Nat.shiftRight_le value shift)

/-- The value lies between two of the samples. -/
def Within (samples : List ℕ) (value : ℕ) : Prop :=
  ∃ low ∈ samples, ∃ high ∈ samples, low ≤ value ∧ value ≤ high

section Within

variable {samples more : List ℕ} {value sample : ℕ}

theorem within_sample (member : sample ∈ samples) : Within samples sample :=
  ⟨sample, member, sample, member, le_rfl, le_rfl⟩

theorem within_mono (subset : samples ⊆ more) (within : Within samples value) :
    Within more value := by
  rcases within with ⟨low, lowIn, high, highIn, above, below⟩
  exact ⟨low, subset lowIn, high, subset highIn, above, below⟩

theorem within_range {least most : ℕ} (within : Within samples value)
    (range : ∀ sample ∈ samples, least ≤ sample ∧ sample ≤ most) :
    least ≤ value ∧ value ≤ most := by
  rcases within with ⟨low, lowIn, high, highIn, above, below⟩
  exact ⟨(range low lowIn).1.trans above, below.trans (range high highIn).2⟩

/-- The average lies below the larger and above the smaller of its two parts. -/
theorem within_average (shift : ℕ) (within : Within samples value) (member : sample ∈ samples) :
    Within samples (average shift value sample) := by
  rcases within with ⟨low, lowIn, high, highIn, above, below⟩
  have least : min low sample ∈ samples := by
    rcases min_choice low sample with same | same <;> rw [same] <;> assumption
  have most : max high sample ∈ samples := by
    rcases max_choice high sample with same | same <;> rw [same] <;> assumption
  refine ⟨min low sample, least, max high sample, most, ?_, ?_⟩
  · calc min low sample = average shift (min low sample) (min low sample) :=
          (average_self shift _).symm
      _ ≤ average shift value sample :=
          average_mono shift ((min_le_left _ _).trans above) (min_le_right _ _)
  · calc average shift value sample
        ≤ average shift (max high sample) (max high sample) :=
          average_mono shift (below.trans (le_max_left _ _)) (le_max_right _ _)
      _ = max high sample := average_self shift _

end Within

end Smoothing
