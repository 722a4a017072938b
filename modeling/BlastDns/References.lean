import BlastDns.AttemptPacing
import Mathlib.Data.List.TakeWhile

/-!
Which windows on record a decision of the attempt brake rests on. `record` drops
what has gone stale, but the goodput comparison reads the history just before it,
and a window that ran below its limit is compared without any call of it. There a
sample older than the reference window may still decide.
-/

namespace BlastDns.References

open Brake BrakeTick AttemptPacing Runs

section Decisions

variable (full : AttemptBrake) (now : ℕ)

def Stale (sample : Sample) : Prop := full.referenceWindowNs < now - sample.atNs

instance : DecidablePred (Stale full now) := fun sample =>
  inferInstanceAs (Decidable (full.referenceWindowNs < now - sample.atNs))

def unshaped : Bool := full.limit.isSome && !shaped full

def recorded : AttemptBrake :=
  (reopened full).record now (judgedRate full) (windowLoss full) (windowDelivered full)

def lossReferences : List Sample :=
  if full.settling || full.probe.isSome then []
  else
    let history := if unshaped full then full.history else (recorded full now).history
    history.filter fun sample => sample.rate ≤ judgedRate full * attemptReferenceBelow

def foundCongested : Bool :=
  !unshaped full &&
    (recorded full now).congested (judgedRate full) (windowLoss full) = some true

def goodputReferences : List Sample :=
  if full.settling || full.probe.isSome then []
  else if foundCongested full now then
    full.history.filter fun sample => judgedRate full < sample.rate
  else []

/-- What has gone stale on record is out of reach of the comparisons that are made
before it is dropped. -/
def OutOfReach : Prop :=
  full.settling = false → full.probe = none → ∀ sample ∈ full.history, Stale full now sample →
    (unshaped full = true → judgedRate full * attemptReferenceBelow < sample.rate) ∧
    (foundCongested full now = true → sample.rate ≤ judgedRate full)

end Decisions

section Influence

/-- Loss is compared with the samples of a clearly lower rate and with no others. -/
theorem congested_congr {one other : AttemptBrake} {rate loss : ℚ}
    (same : (one.history.filter fun sample => sample.rate ≤ rate * attemptReferenceBelow) =
      other.history.filter fun sample => sample.rate ≤ rate * attemptReferenceBelow) :
    one.congested rate loss = other.congested rate loss := by
  rw [AttemptBrake.congested, AttemptBrake.congested, same]

/-- What a shaped window makes of the limit and the probe, by its verdict and the best
goodput of a higher rate. -/
def verdictEffect (limit : Option ℚ) (probe : Option Probe) (verdict : Option Bool)
    (rate delivered best : ℚ) : Option ℚ × Option Probe :=
  let floored := Option.map fun rate => max rate attemptMinRate
  match verdict with
  | none => (floored (some (rate * attemptProbeFraction)),
      some { restore := limit, windows := attemptProbeWindows })
  | some true =>
      if delivered < best * attemptGoodputFloor then (limit, probe)
      else (floored (some (rate * retreat)), probe)
  | some false => (floored (limit.map (· * attemptGrowth)), probe)

theorem act_effect (brake : AttemptBrake) (now : ℕ) (rate loss delivered : ℚ) :
    ((brake.act now rate loss delivered).limit, (brake.act now rate loss delivered).probe) =
      verdictEffect brake.limit brake.probe
        ((brake.record now rate loss delivered).congested rate loss) rate delivered
        (((brake.history.filter fun sample => rate < sample.rate).map
          Sample.delivered).foldl max 0) := by
  rw [AttemptBrake.act]
  cases (brake.record now rate loss delivered).congested rate loss with
  | none => rfl
  | some congested =>
      cases congested with
      | true =>
          simp only [verdictEffect, Bool.not_true, Bool.and_false, Bool.false_eq_true, if_false,
            if_true]
          split <;> rfl
      | false =>
          simp only [Bool.not_false, Bool.and_true, Bool.false_eq_true, if_false]
          cases (brake.record now rate loss delivered).probed <;> cases standing : brake.limit <;>
            simp [verdictEffect, AttemptBrake.record, standing, AttemptBrake.setLimit]

variable {full other : AttemptBrake} {now : ℕ}

def SameWindow (full other : AttemptBrake) : Prop := other = { full with history := other.history }

theorem references_decide (same : SameWindow full other) (judges : full.settling = false)
    (losses : lossReferences other now = lossReferences full now)
    (goodputs : goodputReferences other now = goodputReferences full now) :
    ((other.closeWindow now).limit, (other.closeWindow now).probe) =
      ((full.closeWindow now).limit, (full.closeWindow now).probe) := by
  have settled : other.settling = false := by rw [same]; exact judges
  have probe : other.probe = full.probe := by rw [same]
  have limit : other.limit = full.limit := by rw [same]
  have rate : judgedRate other = judgedRate full := by rw [same]; rfl
  have loss : windowLoss other = windowLoss full := by rw [same]; rfl
  have delivered : windowDelivered other = windowDelivered full := by rw [same]; rfl
  have loose : unshaped other = unshaped full := by rw [same]; rfl
  rw [close_window_judged other now settled, close_window_judged full now judges, probe, rate, loss,
    delivered]
  simp only [lossReferences, goodputReferences, foundCongested, settled, judges, probe, loose, rate,
    loss, Bool.false_or] at losses goodputs
  cases running : full.probe with
  | some probe =>
      dsimp only [AttemptBrake.measureProbe]
      split
      · exact congrArg (Prod.mk · _) limit
      · rfl
  | none =>
      simp only [running, Option.isSome_none, Bool.false_eq_true, if_false] at losses goodputs
      dsimp only
      rw [← unshaped, ← unshaped, loose]
      cases ran : unshaped full with
      | true =>
          simp only [ran, if_true] at losses ⊢
          rw [AttemptBrake.releaseUnshaped, AttemptBrake.releaseUnshaped,
            @congested_congr (reopened other) (reopened full) _ _ losses]
          split
          · exact congrArg (Prod.mk _) probe
          · exact Prod.ext limit probe
      | false =>
          simp only [ran, recorded, rate, loss, delivered, Bool.false_eq_true, if_false,
            Bool.not_false, Bool.true_and] at losses goodputs ⊢
          have verdict := @congested_congr _ _ _ (windowLoss full) losses
          rw [verdict] at goodputs
          have standing : (reopened other).limit = (reopened full).limit := limit
          have measuring : (reopened other).probe = (reopened full).probe := probe
          rw [act_effect, act_effect, verdict, standing, measuring]
          -- the goodput of a higher rate counts only where the window is congested
          rcases seen : ((reopened full).record now (judgedRate full) (windowLoss full)
            (windowDelivered full)).congested (judgedRate full) (windowLoss full) with _ | _ | _
          · rfl
          · rfl
          · simp only [seen, decide_true, if_true] at goodputs
            have best : ((reopened other).history.filter fun sample =>
                judgedRate full < sample.rate) = (reopened full).history.filter fun sample =>
                judgedRate full < sample.rate := goodputs
            rw [best]

end Influence

section Record

structure Dated (history : List Sample) (now : ℕ) : Prop where
  sorted : history.Pairwise fun older newer => older.atNs ≤ newer.atNs
  past : ∀ sample ∈ history, sample.atNs ≤ now

variable {brake : AttemptBrake} {now : ℕ}

/-- `record` drops samples from the front, all of them stale, and the new one goes
behind the rest. -/
theorem record_splits (rate loss delivered : ℚ) :
    ∃ dropped kept, brake.history = dropped ++ kept ∧
      (brake.record now rate loss delivered).history =
        kept ++ [{ atNs := now, rate := rate, loss := loss, delivered := delivered }] ∧
      ∀ sample ∈ dropped, Stale brake now sample := by
  refine ⟨brake.history.takeWhile (Stale brake now ·), brake.history.dropWhile (Stale brake now ·),
    List.takeWhile_append_dropWhile.symm, ?_, ?_⟩
  · have pruned : (brake.record now rate loss delivered).history = (brake.history ++
        [({ atNs := now, rate := rate, loss := loss, delivered := delivered } : Sample)]).dropWhile
          (Stale brake now ·) := rfl
    rw [pruned, List.dropWhile_append]
    split
    · rename_i emptied
      rw [List.isEmpty_iff.mp emptied]
      simp [Stale]
    · rfl
  · intro sample member
    have old := List.mem_takeWhile_imp member
    exact of_decide_eq_true old

theorem dated_record (dated : Dated brake.history now) (rate loss delivered : ℚ) :
    Dated (brake.record now rate loss delivered).history now := by
  rcases @record_splits brake now rate loss delivered with
    ⟨dropped, kept, before, after, _⟩
  rw [before] at dated
  rw [after]
  constructor
  · apply List.pairwise_append.mpr
    refine ⟨(List.pairwise_append.mp dated.sorted).2.1, List.pairwise_singleton _ _, ?_⟩
    intro sample member newest last
    rw [List.mem_singleton.mp last]
    exact dated.past sample (List.mem_append_right _ member)
  · intro sample member
    rcases List.mem_append.mp member with old | last
    · exact dated.past sample (List.mem_append_right _ old)
    · rw [List.mem_singleton.mp last]

theorem record_recent (dated : Dated brake.history now) (rate loss delivered : ℚ) :
    ∀ sample ∈ (brake.record now rate loss delivered).history, ¬ Stale brake now sample := by
  have sorted := (dated_record dated rate loss delivered).sorted
  rw [record_history] at sorted ⊢
  generalize brake.history ++ _ = history at sorted ⊢
  induction history with
  | nil => simp
  | cons oldest rest ih =>
      rw [List.dropWhile_cons] at sorted ⊢
      split
      · rename_i old
        rw [if_pos old] at sorted
        exact ih sorted
      · rename_i young
        rw [if_neg young] at sorted
        have head : ¬ Stale brake now oldest := by simpa [Stale] using young
        intro sample member
        rcases List.mem_cons.mp member with rfl | later
        · exact head
        · have order := (List.pairwise_cons.mp sorted).1 sample later
          simp only [Stale] at head ⊢
          omega

end Record

section Runs

variable {brake : AttemptBrake} {input : BrakeInput}

theorem act_history (brake : AttemptBrake) (now : ℕ) (rate loss delivered : ℚ) :
    (brake.act now rate loss delivered).history =
      (brake.record now rate loss delivered).history := by
  rcases act_cases brake now rate loss delivered with
    ⟨_, acted⟩ | ⟨_, acted | acted⟩ | ⟨_, _, ⟨_, acted⟩ | ⟨_, _, acted⟩⟩ <;> rw [acted] <;> rfl

theorem close_window_history (full : AttemptBrake) (now : ℕ) :
    (full.closeWindow now).history = full.history ∨
    ∃ rate loss delivered, (full.closeWindow now).history =
      ((reopened full).record now rate loss delivered).history := by
  rcases close_window_cases full now with
    ⟨_, same⟩ | ⟨_, ⟨probe, _, same⟩ | ⟨_, _, _, same⟩ | ⟨_, _, same⟩⟩
  · left
    rw [same]
    rfl
  · right
    refine ⟨judgedRate full, windowLoss full, windowDelivered full, ?_⟩
    rw [same, AttemptBrake.measureProbe]
    dsimp only
    split <;> rfl
  · left
    rw [same, AttemptBrake.releaseUnshaped]
    split <;> rfl
  · right
    refine ⟨judgedRate full, windowLoss full, windowDelivered full, ?_⟩
    rw [same]
    exact act_history (reopened full) now _ _ _

/-- What a tick does to the record: nothing, a long idle forgets it all, or a judged
window is recorded. -/
theorem history_step (brake : AttemptBrake) (input : BrakeInput) :
    (brakeStep brake input).history = brake.history ∨
    (¬ Idles input ∧ Resets brake input ∧ (brakeStep brake input).history = []) ∨
    ∃ rate loss delivered, (brakeStep brake input).history =
      (brake.record input.now rate loss delivered).history := by
  rcases brake_step_cases brake input with
    ⟨_, _, step⟩ | ⟨busy, _, step⟩ | ⟨full, closes, step⟩
  · left
    rw [step, (idle_effect (observed brake input)).2.1]
    rfl
  · rw [step]
    by_cases reset : Resets brake input
    · exact Or.inr (Or.inl ⟨busy, reset, (opened_reset brake input reset).2.2.1⟩)
    · exact Or.inl (opened_kept brake input reset).2.2.1
  · rcases closing_some closes with ⟨rfl, busy⟩
    rw [step]
    by_cases reset : Resets brake input
    · -- the window that ends a long idle is discarded
      rcases opened_reset brake input reset with ⟨_, _, forgotten, settles⟩
      rcases close_window_cases (opened brake input) input.now with ⟨_, same⟩ | ⟨settled, _⟩
      · rw [same]
        exact Or.inr (Or.inl ⟨busy, reset, forgotten⟩)
      · rw [settles] at settled
        cases settled
    · rcases opened_kept brake input reset with ⟨_, _, history, window, _⟩
      rcases close_window_history (opened brake input) input.now with
        same | ⟨rate, loss, delivered, recorded⟩
      · left
        exact same.trans history
      · right
        right
        refine ⟨rate, loss, delivered, ?_⟩
        rw [recorded, record_history, record_history, ← history, ← window]
        rfl

/-- A closed window is compared with recent samples only, exactly when what has gone
stale is out of reach. -/
theorem references_recent_iff (full : AttemptBrake) {now : ℕ} (dated : Dated full.history now) :
    (∀ sample ∈ lossReferences full now ++ goodputReferences full now, ¬ Stale full now sample) ↔
      OutOfReach full now := by
  have recent : ∀ sample ∈ (recorded full now).history, ¬ Stale full now sample :=
    @record_recent (reopened full) now dated _ _ _
  constructor
  · intro young settled free sample member stale
    constructor
    · intro loose
      by_contra reached
      apply young sample _ stale
      apply List.mem_append_left
      simp [lossReferences, settled, free, loose, member, not_lt.mp reached]
    · intro congested
      by_contra reached
      apply young sample _ stale
      apply List.mem_append_right
      simp [goodputReferences, settled, free, congested, member, not_le.mp reached]
  · intro reach sample member stale
    rcases List.mem_append.mp member with lower | higher
    · rw [lossReferences] at lower
      split at lower
      · cases lower
      · rename_i judges
        simp only [Bool.or_eq_true, not_or, Bool.not_eq_true, Option.isSome_eq_false_iff,
          Option.isNone_iff_eq_none] at judges
        rcases List.mem_filter.mp lower with ⟨known, below⟩
        cases loose : unshaped full with
        | true =>
            rw [if_pos loose] at known
            have above := (reach judges.1 judges.2 sample known stale).1 loose
            exact absurd (of_decide_eq_true below) (not_le_of_gt above)
        | false =>
            rw [loose] at known
            exact recent sample known stale
    · rw [goodputReferences] at higher
      split at higher
      · cases higher
      · rename_i judges
        simp only [Bool.or_eq_true, not_or, Bool.not_eq_true, Option.isSome_eq_false_iff,
          Option.isNone_iff_eq_none] at judges
        split at higher
        · rename_i congested
          rcases List.mem_filter.mp higher with ⟨known, above⟩
          have below := (reach judges.1 judges.2 sample known stale).2 congested
          exact absurd (of_decide_eq_true above) (not_lt_of_ge below)
        · cases higher

variable {inputs : ℕ → BrakeInput} {states : ℕ → AttemptBrake}

theorem run_dated (run : BrakeRun inputs states)
    (ordered : ∀ time, (inputs time).now ≤ (inputs (time + 1)).now) (time : ℕ) :
    Dated (states time).history (inputs time).now := by
  induction time with
  | zero =>
      rw [run.fresh]
      exact ⟨List.Pairwise.nil, by simp [newBrake]⟩
  | succ time ih =>
      have step : brakeStep (states time) (inputs time) = states (time + 1) :=
        Option.some.inj (run.ticks time)
      have dated : Dated (states (time + 1)).history (inputs time).now := by
        rw [← step]
        rcases history_step (states time) (inputs time) with
          same | ⟨_, _, forgotten⟩ | ⟨rate, loss, delivered, same⟩
        · rw [same]
          exact ih
        · rw [forgotten]
          exact ⟨List.Pairwise.nil, by simp⟩
        · rw [same]
          exact dated_record ih rate loss delivered
      exact ⟨dated.sorted, fun sample member => (dated.past sample member).trans (ordered time)⟩

/-- In every run over non-decreasing times: a window that closes is compared with
recent samples only, exactly when what has gone stale is out of reach; and a tick
drops none but stale samples, unless a long idle starts the record over. -/
theorem references_recent (run : BrakeRun inputs states)
    (ordered : ∀ time, (inputs time).now ≤ (inputs (time + 1)).now) (time : ℕ) :
    (∀ full, closing (states time) (inputs time) = some full →
      ((∀ sample ∈ lossReferences full (inputs time).now ++ goodputReferences full (inputs time).now,
        ¬ Stale full (inputs time).now sample) ↔ OutOfReach full (inputs time).now)) ∧
    ((¬ Idles (inputs time) ∧ Resets (states time) (inputs time)) ∨
      ∃ dropped kept added, (states time).history = dropped ++ kept ∧
        (states (time + 1)).history = kept ++ added ∧
        ∀ sample ∈ dropped, Stale (states time) (inputs time).now sample) := by
  have dated := run_dated run ordered time
  constructor
  · intro full closes
    apply references_recent_iff
    rw [(closing_some closes).1]
    have fewer := opened_history (states time) (inputs time)
    exact ⟨dated.sorted.sublist fewer, fun sample member => dated.past sample (fewer.subset member)⟩
  · have step : brakeStep (states time) (inputs time) = states (time + 1) :=
      Option.some.inj (run.ticks time)
    rw [← step]
    rcases history_step (states time) (inputs time) with
      same | ⟨busy, reset, _⟩ | ⟨rate, loss, delivered, same⟩
    · exact Or.inr ⟨[], (states time).history, [], by simp, by simp [same], by simp⟩
    · exact Or.inl ⟨busy, reset⟩
    · rcases @record_splits (states time) (inputs time).now rate loss delivered with
        ⟨dropped, kept, before, after, stale⟩
      exact Or.inr ⟨dropped, kept, _, before, same.trans after, stale⟩

theorem references_recent_knee :
    BrakeRun kneeInputs (brakeStates kneeInputs) ∧
      ∃ full, closing (brakeStates kneeInputs 6) (kneeInputs 6) = some full ∧
        (lossReferences full (kneeInputs 6).now).length = 2 ∧
        ∀ sample ∈ lossReferences full (kneeInputs 6).now ++
          goodputReferences full (kneeInputs 6).now, ¬ Stale full (kneeInputs 6).now sample := by
  have run := brake_run_exists kneeInputs
  have clock : ∀ time, (kneeInputs time).now = 10 ^ 10 * (time + 1) := by
    intro time
    unfold kneeInputs
    split
    · rfl
    · split
      · rfl
      · split <;> rfl
  have ordered : ∀ time, (kneeInputs time).now ≤ (kneeInputs (time + 1)).now := by
    intro time
    rw [clock, clock]
    omega
  have computed : (closing (brakeStates kneeInputs 6) (kneeInputs 6)).any (fun full =>
      (lossReferences full (kneeInputs 6).now).length = 2 &&
        full.history.all fun sample => ¬ Stale full (kneeInputs 6).now sample) = true := by
    decide +kernel
  rcases (Option.any_eq_true _ _).mp computed with ⟨full, closes, seen⟩
  simp only [Bool.and_eq_true, decide_eq_true_eq, List.all_eq_true] at seen
  have reach : OutOfReach full (kneeInputs 6).now := fun _ _ sample member stale =>
    absurd stale (seen.2 sample member)
  exact ⟨run, full, closes, seen.1, ((references_recent run ordered 6).1 full closes).mpr reach⟩

/-- A hundred attempts per second answered in full, a probe that measures fifty, and
then thirty seconds at ninety with half of the attempts lost. -/
def slowInputs (time : ℕ) : BrakeInput :=
  if time < 2 then steadyTick time 100 0
  else if time < 5 then steadyTick time 50 0
  else if time < 6 then steadyTick time 100 0
  else { steadyTick (time + 2) 0 0 with
    seconds := 30, attempted := 2700, lost := 1350, responded := 1350 }

def recentOnly (full : AttemptBrake) (now : ℕ) : AttemptBrake :=
  { full with history := full.history.filter fun sample => ¬ Stale full now sample }

/-- The window at ninety is held against a sample of seventy seconds ago and the limit
is left alone; with recent samples only the brake would retreat. -/
theorem stale_reference_used :
    BrakeRun slowInputs (brakeStates slowInputs) ∧
      (∀ time, (slowInputs time).now ≤ (slowInputs (time + 1)).now) ∧
      ∃ full, closing (brakeStates slowInputs 6) (slowInputs 6) = some full ∧
        (∃ sample ∈ goodputReferences full (slowInputs 6).now,
          Stale full (slowInputs 6).now sample) ∧
        (full.closeWindow (slowInputs 6).now).limit = none ∧
        ((recentOnly full (slowInputs 6).now).closeWindow (slowInputs 6).now).limit =
          some (153 / 2) := by
  refine ⟨brake_run_exists slowInputs, ?_, ?_⟩
  · have clock : ∀ time, (slowInputs time).now =
        10 ^ 10 * (if time < 6 then time + 1 else time + 3) := by
      intro time
      simp only [slowInputs, steadyTick]
      grind
    intro time
    rw [clock, clock]
    split <;> split <;> omega
  · have computed : (closing (brakeStates slowInputs 6) (slowInputs 6)).any (fun full =>
        (goodputReferences full (slowInputs 6).now).any (fun sample =>
          Stale full (slowInputs 6).now sample) &&
        (full.closeWindow (slowInputs 6).now).limit = none &&
        ((recentOnly full (slowInputs 6).now).closeWindow (slowInputs 6).now).limit =
          some (153 / 2)) = true := by decide +kernel
    rcases (Option.any_eq_true _ _).mp computed with ⟨full, closes, seen⟩
    simp only [Bool.and_eq_true, decide_eq_true_eq, List.any_eq_true] at seen
    exact ⟨full, closes, seen.1.1, seen.1.2, seen.2⟩

end Runs

end BlastDns.References
