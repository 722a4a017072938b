import BlastDns.Brake
import BlastDns.Runs
import Mathlib.Tactic.Linarith
import Mathlib.Tactic.NormNum

/-!
One tick of the attempt brake, said once for every result about its runs. A
tick is idle, or adds to the open window, or closes it; a closed window is
discarded while the brake is settling, counted for the probe that runs, used
only to release a limit that shaped nothing, or acted on.
-/

namespace BlastDns.BrakeTick

open Brake

/-- What a tick is called with, and the callers it finds waiting on the pacer. -/
structure BrakeInput where
  seconds : ℚ
  attempted : ℕ
  lost : ℕ
  responded : ℕ
  longestTimeout : ℚ
  now : ℕ
  waiting : ℕ

def observed (brake : AttemptBrake) (input : BrakeInput) : AttemptBrake :=
  { brake with pacer := { brake.pacer with waiting := input.waiting } }

def brakeStep (brake : AttemptBrake) (input : BrakeInput) : AttemptBrake :=
  (observed brake input).tick input.seconds input.attempted input.lost input.responded
    input.longestTimeout input.now

/-- `AttemptBrake::new` over a new pacer. -/
def newBrake : AttemptBrake := { pacer := {} }

structure BrakeRun (inputs : ℕ → BrakeInput) (states : ℕ → AttemptBrake) : Prop where
  fresh : states 0 = newBrake
  ticks : Runs.Run (fun brake input => some (brakeStep brake input)) inputs states

def brakeStates (inputs : ℕ → BrakeInput) : ℕ → AttemptBrake
  | 0 => newBrake
  | time + 1 => brakeStep (brakeStates inputs time) (inputs time)

theorem brake_run_exists (inputs : ℕ → BrakeInput) : BrakeRun inputs (brakeStates inputs) :=
  ⟨rfl, fun _ => rfl⟩

section Window

variable (brake : AttemptBrake)

def windowLoss : ℚ := brake.window.lost / ((brake.window.lost + brake.window.responded : ℕ) : ℚ)

def windowRate : ℚ := brake.dispatched / brake.seconds

def windowDelivered : ℚ := brake.window.responded / brake.seconds

def judgedRate : ℚ := brake.limit.getD (windowRate brake)

/-- The limit in force, if any, is what held the window's rate. -/
def shaped : Bool :=
  match brake.limit with
  | none => true
  | some limit => brake.unshapedTicks = 0 || limit * attemptShapedFraction ≤ windowRate brake

/-- A new window, with the flag consumed. -/
def reopened : AttemptBrake := { brake.resetWindow with settling := false }

end Window

def opened (brake : AttemptBrake) (input : BrakeInput) : AttemptBrake :=
  ((observed brake input).resume input.seconds).accumulate input.seconds input.attempted input.lost
    input.responded

def Idles (input : BrakeInput) : Prop := input.attempted < attemptIdleQps * input.seconds

instance (input : BrakeInput) : Decidable (Idles input) :=
  inferInstanceAs (Decidable ((input.attempted : ℚ) < attemptIdleQps * input.seconds))

def closing (brake : AttemptBrake) (input : BrakeInput) : Option AttemptBrake :=
  if Idles input then none
  else
    let full := opened brake input
    if full.window.lost + full.window.responded < attemptMinWindow ||
        full.seconds < input.longestTimeout * attemptWindowTimeouts then none
    else some full

def judging (brake : AttemptBrake) (input : BrakeInput) : Option AttemptBrake :=
  (closing brake input).filter fun full => !full.settling

theorem closing_some {brake full : AttemptBrake} {input : BrakeInput}
    (closes : closing brake input = some full) : full = opened brake input ∧ ¬ Idles input := by
  rw [closing] at closes
  split at closes
  · cases closes
  · rename_i busy
    dsimp only at closes
    split at closes
    · cases closes
    · cases closes
      exact ⟨rfl, busy⟩

theorem brake_step_cases (brake : AttemptBrake) (input : BrakeInput) :
    (Idles input ∧ closing brake input = none ∧
      brakeStep brake input = (observed brake input).idle) ∨
    (¬ Idles input ∧ closing brake input = none ∧ brakeStep brake input = opened brake input) ∨
    ∃ full, closing brake input = some full ∧ brakeStep brake input = full.closeWindow input.now := by
  by_cases idles : Idles input
  · left
    refine ⟨idles, if_pos idles, ?_⟩
    rw [brakeStep, AttemptBrake.tick]
    exact if_pos idles
  · right
    have busy : brakeStep brake input =
        if (opened brake input).window.lost + (opened brake input).window.responded <
            attemptMinWindow ||
          (opened brake input).seconds < input.longestTimeout * attemptWindowTimeouts
        then opened brake input else (opened brake input).closeWindow input.now := by
      rw [brakeStep, AttemptBrake.tick]
      exact if_neg idles
    rw [closing, if_neg idles, busy]
    dsimp only
    split
    · exact Or.inl ⟨idles, rfl, rfl⟩
    · exact Or.inr ⟨_, rfl, rfl⟩

theorem close_window_judged (full : AttemptBrake) (now : ℕ) (settled : full.settling = false) :
    full.closeWindow now =
      match full.probe with
      | some probe => (reopened full).measureProbe probe now (judgedRate full) (windowLoss full)
          (windowDelivered full)
      | none =>
          if full.limit.isSome && !shaped full then
            (reopened full).releaseUnshaped (judgedRate full) (windowLoss full)
          else (reopened full).act now (judgedRate full) (windowLoss full)
            (windowDelivered full) := by
  rw [AttemptBrake.closeWindow]
  exact if_neg (by simp [settled])

/-- What becomes of a closed window: discarded, counted for a probe, a reason to
release the limit, or acted on. -/
theorem close_window_cases (full : AttemptBrake) (now : ℕ) :
    (full.settling = true ∧ full.closeWindow now = reopened full) ∨
    (full.settling = false ∧
      ((∃ probe, full.probe = some probe ∧
        full.closeWindow now = (reopened full).measureProbe probe now (judgedRate full)
          (windowLoss full) (windowDelivered full)) ∨
      (full.probe = none ∧ full.limit.isSome ∧ shaped full = false ∧
        full.closeWindow now =
          (reopened full).releaseUnshaped (judgedRate full) (windowLoss full)) ∨
      (full.probe = none ∧ (full.limit.isSome → shaped full = true) ∧
        full.closeWindow now = (reopened full).act now (judgedRate full) (windowLoss full)
          (windowDelivered full)))) := by
  cases settles : full.settling with
  | true =>
      left
      refine ⟨rfl, ?_⟩
      rw [AttemptBrake.closeWindow]
      exact if_pos settles
  | false =>
      right
      refine ⟨rfl, ?_⟩
      rw [close_window_judged full now settles]
      cases running : full.probe with
      | some probe => exact Or.inl ⟨probe, rfl, rfl⟩
      | none =>
          right
          dsimp only
          split
          · rename_i loose
            rw [Bool.and_eq_true, Bool.not_eq_true'] at loose
            exact Or.inl ⟨rfl, loose.1, loose.2, rfl⟩
          · rename_i tight
            refine Or.inr ⟨rfl, ?_, rfl⟩
            intro limited
            simpa [limited] using tight

/-- The brake after a decision, before any limit is set: the sample is recorded
and the reference window may have changed. -/
def decided (brake : AttemptBrake) (now : ℕ) (rate loss delivered : ℚ) (referenceWindowNs : ℕ) :
    AttemptBrake :=
  { brake.record now rate loss delivered with
    probed := false
    referenceWindowNs := referenceWindowNs }

/-- What a recorded window leads to: a probe where nothing lower is on record, a
hold or a retreat under congestion, growth of a standing limit otherwise. -/
theorem act_cases (brake : AttemptBrake) (now : ℕ) (rate loss delivered : ℚ) :
    ((brake.record now rate loss delivered).congested rate loss = none ∧
      brake.act now rate loss delivered =
        { brake.record now rate loss delivered with
          probe := some { restore := brake.limit, windows := attemptProbeWindows } }.setLimit
            (some (rate * attemptProbeFraction))) ∨
    ((brake.record now rate loss delivered).congested rate loss = some true ∧
      (brake.act now rate loss delivered =
          decided brake now rate loss delivered attemptReferenceWindowNs ∨
        brake.act now rate loss delivered =
          (decided brake now rate loss delivered attemptReferenceWindowNs).setLimit
            (some (rate * retreat)))) ∨
    ((brake.record now rate loss delivered).congested rate loss = some false ∧
      ∃ referenceWindowNs,
        (brake.limit = none ∧ brake.act now rate loss delivered =
          decided brake now rate loss delivered referenceWindowNs) ∨
        ∃ limit, brake.limit = some limit ∧ brake.act now rate loss delivered =
          (decided brake now rate loss delivered referenceWindowNs).setLimit
            (some (limit * attemptGrowth))) := by
  cases seen : (brake.record now rate loss delivered).congested rate loss with
  | none =>
      refine Or.inl ⟨rfl, ?_⟩
      rw [AttemptBrake.act, seen]
      rfl
  | some congested =>
      cases congested with
      | true =>
          refine Or.inr (Or.inl ⟨rfl, ?_⟩)
          rw [AttemptBrake.act, seen]
          simp only [Bool.not_true, Bool.and_false, Bool.false_eq_true, if_false, if_true]
          split
          · exact Or.inl rfl
          · exact Or.inr rfl
      | false =>
          refine Or.inr (Or.inr ⟨rfl, ?_⟩)
          rw [AttemptBrake.act, seen]
          simp only [Bool.not_false, Bool.and_true, Bool.false_eq_true, if_false]
          -- the doubled and the unchanged reference window differ in nothing else
          cases (brake.record now rate loss delivered).probed
          · split
            · next limit standing => exact ⟨_, Or.inr ⟨limit, standing, rfl⟩⟩
            · next standing => exact ⟨_, Or.inl ⟨standing, rfl⟩⟩
          · split
            · next limit standing => exact ⟨_, Or.inr ⟨limit, standing, rfl⟩⟩
            · next standing => exact ⟨_, Or.inl ⟨standing, rfl⟩⟩

/-- What a closed window leaves before any limit is set. A running probe restores the
limit in force, or what the probe before it would. -/
structure Closed (full base : AttemptBrake) : Prop where
  limit : base.limit = full.limit
  pacer : base.pacer = full.pacer
  idleTicks : base.idleTicks = full.idleTicks
  empty : base.dispatched = 0 ∧ base.seconds = 0
  restore : ∀ probe, base.probe = some probe →
    probe.restore = full.limit ∨ ∃ old, full.probe = some old ∧ probe.restore = old.restore

/-- A closed window sets one limit at most, and sets it last. -/
theorem close_window_sets (full : AttemptBrake) (now : ℕ) :
    ∃ base, Closed full base ∧
      (full.closeWindow now = base ∨ ∃ limit, full.closeWindow now = base.setLimit limit) := by
  have same : ∀ probe, full.probe = some probe →
      probe.restore = full.limit ∨ ∃ old, full.probe = some old ∧ probe.restore = old.restore :=
    fun probe running => Or.inr ⟨probe, running, rfl⟩
  rcases close_window_cases full now with
    ⟨_, closed⟩ | ⟨_, ⟨probe, running, closed⟩ | ⟨_, _, _, closed⟩ | ⟨_, _, closed⟩⟩
  · exact ⟨reopened full, ⟨rfl, rfl, rfl, ⟨rfl, rfl⟩, same⟩, Or.inl closed⟩
  · rw [closed, AttemptBrake.measureProbe]
    dsimp only
    split
    · refine ⟨_, ?_, Or.inl rfl⟩
      refine ⟨rfl, rfl, rfl, ⟨rfl, rfl⟩, ?_⟩
      rintro left counted
      cases counted
      exact Or.inr ⟨probe, running, rfl⟩
    · refine ⟨{ { reopened full with probe := none }.record now (judgedRate full) (windowLoss full)
        (windowDelivered full) with probed := true }, ⟨rfl, rfl, rfl, ⟨rfl, rfl⟩, ?_⟩,
        Or.inr ⟨probe.restore, rfl⟩⟩
      rintro left counted
      cases counted
  · rw [closed, AttemptBrake.releaseUnshaped]
    refine ⟨reopened full, ⟨rfl, rfl, rfl, ⟨rfl, rfl⟩, same⟩, ?_⟩
    split
    · exact Or.inr ⟨none, rfl⟩
    · exact Or.inl rfl
  · rw [closed]
    have decides : ∀ referenceWindowNs, Closed full (decided (reopened full) now (judgedRate full)
        (windowLoss full) (windowDelivered full) referenceWindowNs) :=
      fun _ => ⟨rfl, rfl, rfl, ⟨rfl, rfl⟩, same⟩
    rcases act_cases (reopened full) now (judgedRate full) (windowLoss full) (windowDelivered full)
      with ⟨_, acted⟩ | ⟨_, acted | acted⟩ | ⟨_, _, ⟨_, acted⟩ | ⟨_, _, acted⟩⟩ <;> rw [acted]
    · refine ⟨_, ?_, Or.inr ⟨_, rfl⟩⟩
      refine ⟨rfl, rfl, rfl, ⟨rfl, rfl⟩, ?_⟩
      rintro started probing
      cases probing
      exact Or.inl rfl
    · exact ⟨_, decides _, Or.inl rfl⟩
    · exact ⟨_, decides _, Or.inr ⟨_, rfl⟩⟩
    · exact ⟨_, decides _, Or.inl rfl⟩
    · exact ⟨_, decides _, Or.inr ⟨_, rfl⟩⟩

theorem close_window_reset (full : AttemptBrake) (now : ℕ) :
    (full.closeWindow now).dispatched = 0 ∧ (full.closeWindow now).seconds = 0 := by
  rcases close_window_sets full now with ⟨base, closed, same | ⟨limit, same⟩⟩ <;> rw [same] <;>
    exact closed.empty

section Fields

variable (brake : AttemptBrake) (input : BrakeInput)

/-- A busy tick after a long idle: the brake starts over. -/
def Resets : Prop := 0 < brake.idleTicks ∧ 60 ≤ input.seconds * brake.idleTicks

theorem set_limit_limit (limit : Option ℚ) :
    (brake.setLimit limit).limit = limit.map fun rate => max rate attemptMinRate := rfl

theorem set_limit_probe (limit : Option ℚ) : (brake.setLimit limit).probe = brake.probe := rfl

theorem decided_probe (now : ℕ) (rate loss delivered : ℚ) (referenceWindowNs : ℕ) :
    (decided brake now rate loss delivered referenceWindowNs).probe = brake.probe := rfl

/-- An idle tick gives back what a probe had taken, and forgets nothing else. -/
theorem idle_effect :
    brake.idle.probe = none ∧ brake.idle.history = brake.history ∧
      brake.idle.referenceWindowNs = brake.referenceWindowNs ∧
      brake.idle.limit = match brake.probe with
        | some probe => probe.restore.map fun rate => max rate attemptMinRate
        | none => brake.limit := by
  rw [AttemptBrake.idle]
  cases running : brake.probe with
  | some probe => exact ⟨rfl, rfl, rfl, rfl⟩
  | none => exact ⟨running, rfl, rfl, rfl⟩

theorem opened_kept (kept : ¬ Resets brake input) :
    (opened brake input).limit = brake.limit ∧ (opened brake input).probe = brake.probe ∧
      (opened brake input).history = brake.history ∧
      (opened brake input).referenceWindowNs = brake.referenceWindowNs ∧
      ((opened brake input).settling = true ↔ brake.settling = true ∨ 0 < brake.idleTicks) := by
  rw [opened, AttemptBrake.resume]
  by_cases idled : 0 < brake.idleTicks
  · have short : ¬ 60 ≤ input.seconds * brake.idleTicks := fun long => kept ⟨idled, long⟩
    have same : (observed brake input).idleTicks = brake.idleTicks := rfl
    simp only [same, if_pos idled, if_neg short]
    refine ⟨rfl, rfl, rfl, rfl, ?_⟩
    simp [AttemptBrake.accumulate, idled]
  · have same : (observed brake input).idleTicks = brake.idleTicks := rfl
    simp only [same, if_neg idled]
    refine ⟨rfl, rfl, rfl, rfl, ?_⟩
    simp [AttemptBrake.accumulate, observed, idled]

theorem opened_reset (reset : Resets brake input) :
    (opened brake input).limit = none ∧ (opened brake input).probe = brake.probe ∧
      (opened brake input).history = [] ∧ (opened brake input).settling = true := by
  rw [opened, AttemptBrake.resume]
  have same : (observed brake input).idleTicks = brake.idleTicks := rfl
  simp only [same, if_pos reset.1, if_pos reset.2]
  exact ⟨rfl, rfl, rfl, rfl⟩

theorem opened_totals :
    (opened brake input).dispatched = brake.dispatched + input.attempted ∧
      (opened brake input).seconds = brake.seconds + input.seconds := by
  rw [opened, AttemptBrake.resume]
  split
  · dsimp only
    split <;> exact ⟨rfl, rfl⟩
  · exact ⟨rfl, rfl⟩

theorem opened_probe : (opened brake input).probe = brake.probe := by
  by_cases reset : Resets brake input
  · exact (opened_reset brake input reset).2.1
  · exact (opened_kept brake input reset).2.1

theorem opened_history : (opened brake input).history.Sublist brake.history := by
  by_cases reset : Resets brake input
  · rw [(opened_reset brake input reset).2.2.1]
    exact List.nil_sublist _
  · rw [(opened_kept brake input reset).2.2.1]

theorem record_history (now : ℕ) (rate loss delivered : ℚ) :
    (brake.record now rate loss delivered).history =
      (brake.history ++ [({ atNs := now, rate := rate, loss := loss, delivered := delivered } :
        Sample)]).dropWhile
        fun oldest => brake.referenceWindowNs < now - oldest.atNs := rfl

theorem congested_reference {rate loss : ℚ} (congested : brake.congested rate loss = some true) :
    ∃ sample ∈ brake.history, sample.rate ≤ rate * attemptReferenceBelow ∧
      sample.loss + attemptLossThreshold < loss := by
  rw [AttemptBrake.congested] at congested
  split at congested
  · cases congested
  · rename_i found
    simp only [Option.some.injEq, Bool.and_eq_true, decide_eq_true_eq] at congested
    generalize lower_eq : (brake.history.filter fun sample =>
      sample.rate ≤ rate * attemptReferenceBelow).map Sample.loss = lower at congested found
    have inside : lower.length / 2 < (lower.insertionSort (· ≤ ·)).length := by
      rw [List.length_insertionSort]
      exact Nat.div_lt_self (List.length_pos_iff.mpr found) (by decide)
    have median : (lower.insertionSort (· ≤ ·)).getD (lower.length / 2) 0 ∈ lower := by
      rw [List.getD_eq_getElem?_getD, List.getElem?_eq_getElem inside, Option.getD_some]
      exact (List.mem_insertionSort _).mp (List.getElem_mem inside)
    generalize (lower.insertionSort (· ≤ ·)).getD (lower.length / 2) 0 = reference
      at congested median
    rw [← lower_eq] at median
    rcases List.mem_map.mp median with ⟨sample, kept, rfl⟩
    rcases List.mem_filter.mp kept with ⟨member, below⟩
    exact ⟨sample, member, of_decide_eq_true below, congested.2⟩

end Fields

end BlastDns.BrakeTick
