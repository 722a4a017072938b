import Mathlib.Data.Nat.Init
import Mathlib.Logic.Relation
import Mathlib.Order.Monotone.Basic
import Mathlib.Order.WellFounded
import Mathlib.Tactic.Choose

/-!
Runs of machines whose step may fail. A step that yields no successor stands
for an aborted computation, so a run of every length is itself a claim that
nothing aborts. Inputs are an infinite stream: each finite history is one of
its prefixes. Nothing here knows what the machine does.
-/

namespace Runs

variable {State Input : Type}

/-- `states` is the run of `step` on `inputs`: no step along it aborts. -/
def Run (step : State → Input → Option State) (inputs : Nat → Input)
    (states : Nat → State) : Prop :=
  ∀ time, step (states time) (inputs time) = some (states (time + 1))

section Rules

variable {step : State → Input → Option State}
variable {inputs : Nat → Input} {states : Nat → State}

theorem run_invariant (inv : State → Prop)
    (preserved : ∀ before input after, inv before →
      step before input = some after → inv after)
    (run : Run step inputs states) (start : inv (states 0)) :
    ∀ time, inv (states time) := by
  intro time
  induction time with
  | zero => exact start
  | succ time ih => exact preserved _ _ _ ih (run time)

theorem run_invariant_along (inv : State → Prop) (admitted : State → Input → Prop)
    (preserved : ∀ before input after, inv before → admitted before input →
      step before input = some after → inv after)
    (run : Run step inputs states) (start : inv (states 0))
    (along : ∀ time, admitted (states time) (inputs time)) :
    ∀ time, inv (states time) := by
  intro time
  induction time with
  | zero => exact start
  | succ time ih => exact preserved _ _ _ ih (along time) (run time)

theorem run_exists_on (inv : State → Prop) (inputs : Nat → Input)
    (progress : ∀ time before, inv before →
      ∃ after, step before (inputs time) = some after ∧ inv after)
    (first : State) (start : inv first) :
    ∃ states, states 0 = first ∧ Run step inputs states ∧
      ∀ time, inv (states time) := by
  have : Nonempty State := ⟨first⟩
  choose! next stepped kept using progress
  let states : Nat → State := Nat.rec first fun time state => next time state
  have holds : ∀ time, inv (states time) := by
    intro time
    induction time with
    | zero => exact start
    | succ time ih => exact kept _ _ ih
  exact ⟨states, rfl, fun time => stepped _ _ (holds time), holds⟩

theorem run_exists (inv : State → Prop)
    (progress : ∀ before input, inv before →
      ∃ after, step before input = some after ∧ inv after)
    (first : State) (start : inv first) (inputs : Nat → Input) :
    ∃ states, states 0 = first ∧ Run step inputs states ∧
      ∀ time, inv (states time) :=
  run_exists_on inv inputs (fun time before held => progress before (inputs time) held) first start

/-- The same in closed loop: the environment picks each input from the state. -/
theorem closed_run_exists (inv : State → Prop) (admitted : State → Input → Prop)
    (progress : ∀ before, inv before →
      ∃ input after, admitted before input ∧ step before input = some after ∧ inv after)
    (first : State) (start : inv first) :
    ∃ inputs states, states 0 = first ∧ Run step inputs states ∧
      ∀ time, admitted (states time) (inputs time) := by
  rcases progress first start with ⟨someInput, _⟩
  have : Nonempty State := ⟨first⟩
  have : Nonempty Input := ⟨someInput⟩
  choose! pick next fits stepped kept using progress
  let states : Nat → State := Nat.rec first fun _ state => next state
  have holds : ∀ time, inv (states time) := by
    intro time
    induction time with
    | zero => exact start
    | succ time ih => exact kept _ ih
  exact ⟨fun time => pick (states time), states, rfl, fun time => stepped _ (holds time),
    fun time => fits _ (holds time)⟩

theorem run_persists (inv : State → Prop) (admitted : State → Input → Prop)
    (preserved : ∀ before input after, inv before → admitted before input →
      step before input = some after → inv after)
    (run : Run step inputs states) (first : Nat) (start : inv (states first))
    (last : Nat) (order : first ≤ last)
    (along : ∀ time, first ≤ time → time < last → admitted (states time) (inputs time)) :
    inv (states last) := by
  induction last, order using Nat.le_induction with
  | base => exact start
  | succ last order ih =>
      have held := ih fun time lower upper => along time lower (Nat.lt_succ_of_lt upper)
      exact preserved _ _ _ held (along last order (Nat.lt_succ_self last)) (run last)

end Rules

/-- A flag that starts low and moves only at events was raised by the latest
event before it is seen high. -/
theorem latest_event (flag event : Nat → Prop) (low : ¬ flag 0)
    (quiet : ∀ time, ¬ event time → (flag (time + 1) ↔ flag time))
    (time : Nat) (high : flag time) :
    ∃ earlier, earlier < time ∧ event earlier ∧ flag (earlier + 1) ∧
      ∀ between, earlier < between → between < time → ¬ event between := by
  induction time with
  | zero => exact absurd high low
  | succ time ih =>
      by_cases happened : event time
      · exact ⟨time, Nat.lt_succ_self time, happened, high, fun between lower upper => by omega⟩
      · obtain ⟨earlier, before, raised, seen, gap⟩ := ih ((quiet time happened).mp high)
        refine ⟨earlier, Nat.lt_succ_of_lt before, raised, seen, ?_⟩
        intro between lower upper
        rcases Nat.lt_succ_iff_lt_or_eq.mp upper with inside | last
        · exact gap between lower inside
        · subst last
          exact happened

/-- Events that each lower a rank nothing raises come to an end. -/
theorem events_end {Rank : Type} [Preorder Rank] [WellFoundedLT Rank] (rank : Nat → Rank)
    (event : Nat → Prop) (kept : ∀ time, rank (time + 1) ≤ rank time)
    (lowered : ∀ time, event time → rank (time + 1) < rank time) :
    ∃ quiet, ∀ time, quiet ≤ time → ¬ event time := by
  have falling : Antitone rank := antitone_nat_of_succ_le kept
  -- by induction on the rank that is left at `start`
  have ending : ∀ left start, rank start = left →
      ∃ quiet, ∀ time, quiet ≤ time → ¬ event time := by
    intro left
    induction left using WellFoundedLT.induction with
    | ind left ih =>
        intro start standing
        by_cases more : ∃ time, start ≤ time ∧ event time
        · rcases more with ⟨time, later, happened⟩
          have lower : rank (time + 1) < left :=
            standing ▸ lt_of_lt_of_le (lowered time happened) (falling later)
          exact ih _ lower (time + 1) rfl
        · exact ⟨start, fun time later happened => more ⟨time, later, happened⟩⟩
  exact ending (rank 0) 0 rfl

theorem events_end_since {Rank : Type} [Preorder Rank] [WellFoundedLT Rank] (rank : Nat → Rank)
    (event : Nat → Prop) (since : Nat)
    (kept : ∀ time, since ≤ time → rank (time + 1) ≤ rank time)
    (lowered : ∀ time, since ≤ time → event time → rank (time + 1) < rank time) :
    ∃ quiet, since ≤ quiet ∧ ∀ time, quiet ≤ time → ¬ event time := by
  rcases events_end (fun time => rank (since + time)) (fun time => event (since + time))
    (fun time => kept _ (Nat.le_add_right since time))
    (fun time => lowered _ (Nat.le_add_right since time)) with ⟨quiet, still⟩
  refine ⟨since + quiet, Nat.le_add_right since quiet, ?_⟩
  intro time later
  have past := still (time - since) (by omega)
  rwa [Nat.add_sub_of_le (by omega)] at past

/-! Interleavings: the same rule for relations, where the next step is any of
the enabled ones. -/

theorem reachable_invariant {Step : State → State → Prop} (inv : State → Prop)
    (preserved : ∀ before after, inv before → Step before after → inv after)
    {first last : State} (reached : Relation.ReflTransGen Step first last)
    (start : inv first) : inv last := by
  induction reached with
  | refl => exact start
  | tail _ next ih => exact preserved _ _ ih next

/-- Stages that each lead to the next are all reached. -/
theorem stages_reached (Step : State → State → Prop) (stage : ℕ → State → Prop) (count : ℕ)
    (advance : ∀ done, done < count → ∀ state, stage done state →
      ∃ next, Relation.ReflTransGen Step state next ∧ stage (done + 1) next)
    {first : State} (start : stage 0 first) :
    ∃ last, Relation.ReflTransGen Step first last ∧ stage count last := by
  induction count with
  | zero => exact ⟨first, .refl, start⟩
  | succ count ih =>
      rcases ih fun done earlier => advance done (Nat.lt_succ_of_lt earlier) with
        ⟨state, reached, standing⟩
      rcases advance count (Nat.lt_succ_self count) state standing with ⟨next, on, arrived⟩
      exact ⟨next, reached.trans on, arrived⟩

theorem replay_reaches {step : State → Input → Option State} {inputs : List Input}
    {first last : State} (replayed : inputs.foldlM step first = some last) :
    Relation.ReflTransGen (fun before after => ∃ input, step before input = some after)
      first last := by
  induction inputs generalizing first with
  | nil =>
      cases replayed
      exact .refl
  | cons input rest ih =>
      rw [List.foldlM_cons] at replayed
      rcases Option.bind_eq_some_iff.mp replayed with ⟨middle, stepped, tail⟩
      exact .head ⟨input, stepped⟩ (ih tail)

theorem run_replays {step : State → Input → Option State} {inputs : Nat → Input}
    {states : Nat → State} (run : Run step inputs states) (time : Nat) :
    ((List.range time).map inputs).foldlM step (states 0) = some (states time) := by
  induction time with
  | zero => rfl
  | succ time ih =>
      rw [List.range_succ, List.map_append, List.foldlM_append, ih]
      change (step (states time) (inputs time) >>= pure) = some (states (time + 1))
      rw [run time]
      rfl

theorem run_after_replay {step : State → Input → Option State} {replayed : List Input}
    {first : State} {inputs : Nat → Input} (states : Nat → State)
    (played : replayed.foldlM step first = some (states 0)) (run : Run step inputs states) :
    ∃ joinedInputs joinedStates, joinedStates 0 = first ∧ Run step joinedInputs joinedStates ∧
      (∀ time, joinedInputs time ∈ replayed ∨ ∃ later, joinedInputs time = inputs later) ∧
      ∀ time, joinedStates (replayed.length + time) = states time := by
  induction replayed generalizing first with
  | nil =>
      cases played
      exact ⟨inputs, states, rfl, run, fun time => .inr ⟨time, rfl⟩,
        fun time => congrArg states (Nat.zero_add time)⟩
  | cons input rest ih =>
      rw [List.foldlM_cons] at played
      rcases Option.bind_eq_some_iff.mp played with ⟨second, stepped, tail⟩
      rcases ih tail with ⟨later, reached, start, goes, drawn, ends⟩
      refine ⟨Nat.rec input fun time _ => later time, Nat.rec first fun time _ => reached time, rfl,
        ?_, ?_, ?_⟩
      · intro time
        cases time with
        | zero => exact stepped.trans (congrArg some start.symm)
        | succ time => exact goes time
      · intro time
        cases time with
        | zero => exact .inl List.mem_cons_self
        | succ time =>
            rcases drawn time with inside | beyond
            · exact .inl (List.mem_cons_of_mem _ inside)
            · exact .inr beyond
      · intro time
        rw [List.length_cons, Nat.succ_add]
        exact ends time

theorem admitted_replay_reaches {step : State → Input → Option State}
    {admitted : State → Input → Prop} [∀ state input, Decidable (admitted state input)]
    {inputs : List Input} {first last : State}
    (replayed : inputs.foldlM (fun state input =>
      if admitted state input then step state input else none) first = some last) :
    Relation.ReflTransGen (fun before after => ∃ input, admitted before input ∧
      step before input = some after) first last := by
  apply Relation.ReflTransGen.mono _ _ _ (replay_reaches replayed)
  rintro before after ⟨input, stepped⟩
  split at stepped
  · rename_i allowed
    exact ⟨input, allowed, stepped⟩
  · cases stepped

end Runs
