import BlastDns.Judge
import Mathlib.Data.List.Induction

/-!
What the loss judge is for, said over the whole sequence of windows it has
seen. A history lists the judged windows newest first; no field of the judge
occurs in `specVerdict`. The four stored fields are shown to be exactly the
summaries of that history which the verdict needs.
-/

namespace BlastDns.JudgeHistory

open Judge

structure Window where
  loss : ℚ
  delivered : ℚ
  verdict : Verdict

abbrev History := List Window

/-- The block of congested windows just before the next call. -/
def episode (history : History) : List Window :=
  history.takeWhile fun window => window.verdict.isCongested

/-- Losses from the last baseline verdict on, that window included; empty when
there has been none. -/
def sinceBaseline : History → List ℚ
  | [] => []
  | window :: older =>
      if window.verdict = .baseline then [window.loss]
      else if (sinceBaseline older).isEmpty then [] else window.loss :: sinceBaseline older

def base (history : History) : ℚ :=
  (sinceBaseline history).min?.getD 0

def Paying (history : History) (delivered : ℚ) : Prop :=
  ∀ top ∈ ((episode history).map Window.delivered).max?, 95 / 100 * top ≤ delivered

def Improving (history : History) (loss : ℚ) : Prop :=
  ∀ least ∈ ((episode history).map Window.loss).min?, loss < 99 / 100 * least

def LastFlat : History → Prop
  | [] => False
  | window :: older => window.verdict.isCongested = true ∧ ¬ Improving older window.loss

open Classical in
/-- The verdict as a function of the history alone. -/
noncomputable def specVerdict (history : History) (loss delivered : ℚ) : Verdict :=
  if loss ≤ base history + 2 / 100 then .clear
  else if ¬ Paying history delivered ∨ (¬ Improving history loss ∧ LastFlat history) then .baseline
  else .congested (decide (episode history ≠ [] ∧ Improving history loss ∧ Paying history delivered))

def replay (calls : List (ℚ × ℚ)) : LossJudge × History :=
  calls.foldl (fun (judge, history) (loss, delivered) =>
    ((judge.judge loss delivered).2,
      ⟨loss, delivered, (judge.judge loss delivered).1⟩ :: history)) ({}, [])

structure Represents (judge : LossJudge) (history : History) : Prop where
  best : judge.best = ((episode history).map Window.loss).min?
  delivered : judge.bestDelivered = ((episode history).map Window.delivered).max?
  flat : LastFlat history → judge.stalled = 1
  steady : ¬ LastFlat history → judge.stalled = 0
  baseline : judge.baseline = (sinceBaseline history).min?

theorem represents_fresh : Represents {} [] where
  best := rfl
  delivered := rfl
  flat := False.elim
  steady _ := rfl
  baseline := rfl

section Summaries

variable {judge : LossJudge} {history : History}

theorem paying_iff (rep : Represents judge history) (delivered : ℚ) :
    judge.paying delivered = true ↔ Paying history delivered := by
  rw [LossJudge.paying, Paying, rep.delivered]
  cases ((episode history).map Window.delivered).max? with
  | none => simp
  | some top =>
      simp only [Option.mem_some_iff, forall_eq', retreatMustDeliver, mul_comm]
      exact decide_eq_true_iff

theorem improving_iff (rep : Represents judge history) (loss : ℚ) :
    judge.improving loss = true ↔ Improving history loss := by
  rw [LossJudge.improving, Improving, rep.best]
  cases ((episode history).map Window.loss).min? with
  | none => simp
  | some least =>
      simp only [Option.mem_some_iff, forall_eq', retreatMustImprove, mul_comm]
      exact decide_eq_true_iff

theorem open_episode_iff (rep : Represents judge history) :
    judge.best.isSome = true ↔ episode history ≠ [] := by
  rw [rep.best]
  cases episode history with
  | nil => simp
  | cons window rest => simp [List.min?_cons]

theorem stalled_iff (rep : Represents judge history) :
    1 ≤ judge.stalled ↔ LastFlat history := by
  constructor
  · intro spent
    by_contra steady
    have := rep.steady steady
    omega
  · intro flat
    exact (rep.flat flat).ge

theorem clear_iff (rep : Represents judge history) (loss : ℚ) :
    loss ≤ judge.baseline.getD 0 + lossThreshold ↔ loss ≤ base history + 2 / 100 := by
  rw [rep.baseline, base, lossThreshold]

theorem lowered_eq (rep : Represents judge history) (window : Window)
    (other : window.verdict ≠ .baseline) :
    judge.lowered window.loss = (sinceBaseline (window :: history)).min? := by
  rw [LossJudge.lowered, rep.baseline, sinceBaseline, if_neg other]
  cases sinceBaseline history with
  | nil => rfl
  | cons loss rest => simp [List.min?_cons, min_comm]

theorem episode_extend (rep : Represents judge history) (window : Window) (stalled : ℕ)
    (congested : window.verdict.isCongested = true) :
    (judge.extend window.loss window.delivered stalled).best =
        ((episode (window :: history)).map Window.loss).min? ∧
      (judge.extend window.loss window.delivered stalled).bestDelivered =
        ((episode (window :: history)).map Window.delivered).max? := by
  have grown : episode (window :: history) = window :: episode history := by
    simp [episode, congested]
  rw [grown, List.map_cons, List.map_cons, List.min?_cons, List.max?_cons, ← rep.best,
    ← rep.delivered, LossJudge.extend]
  constructor
  · cases judge.best with
    | none => rfl
    | some best => simp [min_comm]
  · cases judge.bestDelivered with
    | none => rfl
    | some best => simp [max_comm]

/-- A congested window extends the episode; its stall count says whether it was flat. -/
theorem represents_congested (rep : Represents judge history) (window : Window) (stalled : ℕ)
    (congested : window.verdict.isCongested = true)
    (flat : ¬ Improving history window.loss → stalled = 1)
    (steady : Improving history window.loss → stalled = 0) :
    Represents (judge.extend window.loss window.delivered stalled) (window :: history) where
  best := (episode_extend rep window stalled congested).1
  delivered := (episode_extend rep window stalled congested).2
  flat last := flat last.2
  steady last := steady (by
    by_contra stuck
    exact last ⟨congested, stuck⟩)
  baseline := by
    apply lowered_eq rep window
    intro same
    rw [same] at congested
    exact absurd congested (by decide)

theorem represents_ended (window : Window) (baseline : Option ℚ)
    (ended : window.verdict.isCongested = false)
    (kept : baseline = (sinceBaseline (window :: history)).min?) :
    Represents { baseline := baseline } (window :: history) where
  best := by simp [episode, ended]
  delivered := by simp [episode, ended]
  flat last := by
    rw [last.1] at ended
    exact absurd ended (by decide)
  steady _ := rfl
  baseline := kept

end Summaries

/-- One call: the verdict is the history's verdict and the fields go on
summarising the longer history. -/
theorem judge_refines {judge : LossJudge} {history : History} (rep : Represents judge history)
    (loss delivered : ℚ) :
    (judge.judge loss delivered).1 = specVerdict history loss delivered ∧
      Represents (judge.judge loss delivered).2
        (⟨loss, delivered, (judge.judge loss delivered).1⟩ :: history) := by
  have clear := clear_iff rep loss
  have pays := paying_iff rep delivered
  have improves := improving_iff rep loss
  have spent := stalled_iff rep
  have exceeds : judge.baseline.getD 0 + lossThreshold < loss → ¬ loss ≤ base history + 2 / 100 :=
    fun above below => absurd (clear.mpr below) (not_le.mpr above)
  rcases judge_cases judge loss delivered with
    ⟨below, same⟩ | ⟨above, failed, same⟩ | ⟨above, paid, improved, same⟩ |
      ⟨above, paid, stuck, fresh, same⟩ <;> rw [same]
  · constructor
    · rw [specVerdict, if_pos (clear.mp below)]
    · exact represents_ended _ _ rfl (lowered_eq rep ⟨loss, delivered, .clear⟩ (by simp))
  · have settled : ¬ Paying history delivered ∨ (¬ Improving history loss ∧ LastFlat history) := by
      rcases failed with unpaid | ⟨flat, again⟩
      · exact Or.inl fun h => by simp [pays.mpr h] at unpaid
      · exact Or.inr ⟨fun h => by simp [improves.mpr h] at flat, spent.mp again⟩
    constructor
    · rw [specVerdict, if_neg (exceeds above), if_pos settled]
    · exact represents_ended _ _ rfl (by simp [sinceBaseline])
  · have going : ¬ (¬ Paying history delivered ∨ (¬ Improving history loss ∧ LastFlat history)) := by
      simp [pays.mp paid, improves.mp improved]
    constructor
    · rw [specVerdict, if_neg (exceeds above), if_neg going]
      refine congrArg Verdict.congested (Bool.eq_iff_iff.mpr ?_)
      rw [open_episode_iff rep]
      simp [pays.mp paid, improves.mp improved]
    · exact represents_congested rep ⟨loss, delivered, .congested _⟩ 0 rfl
        (fun flat => absurd (improves.mp improved) flat) fun _ => rfl
  · -- a first flat window is tolerated, and only remembered
    have flat : ¬ Improving history loss := fun h => by simp [improves.mpr h] at stuck
    have first : ¬ LastFlat history := fun h => by
      have := spent.mpr h
      omega
    have going : ¬ (¬ Paying history delivered ∨ (¬ Improving history loss ∧ LastFlat history)) := by
      simp [pays.mp paid, first]
    constructor
    · rw [specVerdict, if_neg (exceeds above), if_neg going]
      simp [flat]
    · exact represents_congested rep ⟨loss, delivered, .congested _⟩ 1 rfl (fun _ => rfl)
        fun improving => absurd improving flat

theorem replay_represents (calls : List (ℚ × ℚ)) :
    Represents (replay calls).1 (replay calls).2 := by
  induction calls using List.reverseRecOn with
  | nil => exact represents_fresh
  | append_singleton calls call ih =>
      simp only [replay, List.foldl_append, List.foldl_cons, List.foldl_nil]
      exact (judge_refines ih call.1 call.2).2

theorem since_baseline_nil_iff (history : History) :
    sinceBaseline history = [] ↔ ∀ window ∈ history, window.verdict ≠ .baseline := by
  induction history with
  | nil => simp [sinceBaseline]
  | cons window older ih =>
      by_cases settled : window.verdict = .baseline
      · simp [sinceBaseline, settled]
      · simp only [sinceBaseline, settled, if_false, List.forall_mem_cons]
        rw [← ih]
        cases sinceBaseline older <;> simp [settled]

/-- Only a baseline verdict can raise the stored baseline. -/
theorem baseline_falls (judge : LossJudge) (loss delivered stored : ℚ)
    (known : judge.baseline = some stored) (other : (judge.judge loss delivered).1 ≠ .baseline) :
    ∃ next, (judge.judge loss delivered).2.baseline = some next ∧ next ≤ stored := by
  refine ⟨min stored loss, ?_, min_le_left _ _⟩
  rcases judge_cases judge loss delivered with
    ⟨_, same⟩ | ⟨_, _, same⟩ | ⟨_, _, _, same⟩ | ⟨_, _, _, _, same⟩
  · simp [same, LossJudge.lowered, known]
  · simp [same] at other
  · simp [same, LossJudge.extend, LossJudge.lowered, known]
  · simp [same, LossJudge.extend, LossJudge.lowered, known]

/-- Whatever has been judged so far, the next verdict is the one the history
alone determines, and the stored baseline and stall count are what the history
says they are. -/
theorem judge_follows_history (calls : List (ℚ × ℚ)) (loss delivered : ℚ) :
    let judge := (replay calls).1
    let history := (replay calls).2
    let verdict := (judge.judge loss delivered).1
    (verdict = .clear ↔ loss ≤ base history + 2 / 100) ∧
    (¬ loss ≤ base history + 2 / 100 →
      (verdict = .baseline ↔
        ¬ Paying history delivered ∨ (¬ Improving history loss ∧ LastFlat history))) ∧
    (¬ loss ≤ base history + 2 / 100 →
      ¬ (¬ Paying history delivered ∨ (¬ Improving history loss ∧ LastFlat history)) →
      ∃ converging, verdict = .congested converging ∧
        (converging = true ↔
          episode history ≠ [] ∧ Improving history loss ∧ Paying history delivered)) ∧
    (judge.baseline = none ↔ ∀ window ∈ history, window.verdict ≠ .baseline) ∧
    judge.baseline = (sinceBaseline history).min? ∧
    (∀ stored, judge.baseline = some stored → verdict ≠ .baseline →
      ∃ next, (judge.judge loss delivered).2.baseline = some next ∧ next ≤ stored) ∧
    judge.stalled ≤ 1 := by
  intro judge history verdict
  have rep : Represents judge history := replay_represents calls
  have spec : verdict = specVerdict history loss delivered := (judge_refines rep loss delivered).1
  refine ⟨?_, ?_, ?_, ?_, rep.baseline, ?_, ?_⟩
  · rw [spec, specVerdict]
    split_ifs <;> simp_all
  · intro above
    rw [spec, specVerdict, if_neg above]
    split_ifs <;> simp_all
  · intro above going
    refine ⟨_, by rw [spec, specVerdict, if_neg above, if_neg going], ?_⟩
    simp
  · rw [rep.baseline, ← since_baseline_nil_iff]
    cases sinceBaseline history with
    | nil => simp
    | cons loss rest => simp [List.min?_cons]
  · intro stored known other
    exact baseline_falls judge loss delivered stored known other
  · by_cases flat : LastFlat history
    · exact (rep.flat flat).le
    · exact (rep.steady flat).le.trans zero_le_one

end BlastDns.JudgeHistory
