import BlastDns.CapacityLoop
import BlastDns.Epochs
import BlastDns.NoRatchet
import Mathlib.Algebra.BigOperators.Fin

/-!
What the measurement windows hold. A tick replaces the snapshot of a resolver,
adds the difference to the open window and leaves the loop body at one of
several places, and only some of them start the window over. The counters that
every tick reads are split without remainder between the windows closed so far
and the open one; the same holds of the global window, which closes on its
number of finished queries alone.
-/

namespace BlastDns.WindowAccounts

open Limiter Judge Brake Health LaneTick Controller GlobalCeiling ControlRuns NoRatchet CapacityLoop

variable {n : ℕ} {ceiling : ℚ} {inputs : ℕ → TickInput n} {states : ℕ → Control n}

section Lanes

variable {lane after : Lane} {current : Observation} {timeout seconds : ℚ} {now : ℕ}

structure SameWindow (lane other : Lane) : Prop where
  perResolver : other.perResolver = lane.perResolver
  window : other.window = lane.window
  windowSeconds : other.windowSeconds = lane.windowSeconds

theorem same_window_refl (lane : Lane) : SameWindow lane lane := ⟨rfl, rfl, rfl⟩

theorem same_window_from {between : Lane} (second : SameWindow between after)
    (first : SameWindow lane between) : SameWindow lane after :=
  ⟨second.perResolver.trans first.perResolver, second.window.trans first.window,
    second.windowSeconds.trans first.windowSeconds⟩

theorem set_rate_window {queriesPerSecond : ℚ} (stored : lane.setRate queriesPerSecond = some after) :
    SameWindow lane after := by
  rcases Option.map_eq_some_iff.mp stored with ⟨limiter, _, same⟩
  subst same
  exact ⟨rfl, rfl, rfl⟩

theorem relax_window (relaxed : lane.relax now = some after) : SameWindow lane after := by
  rw [Lane.relax] at relaxed
  split at relaxed
  · cases relaxed
    exact same_window_refl lane
  · split at relaxed
    · exact same_window_from (set_rate_window relaxed) ⟨rfl, rfl, rfl⟩
    · dsimp only at relaxed
      split at relaxed
      · exact set_rate_window relaxed
      · cases relaxed
        exact same_window_refl lane

theorem undo_retreat_window (undone : lane.undoRetreat = some after) : SameWindow lane after := by
  rw [Lane.undoRetreat] at undone
  split at undone
  · exact same_window_from (set_rate_window undone) ⟨rfl, rfl, rfl⟩
  · cases undone
    exact ⟨rfl, rfl, rfl⟩

theorem retreat_below_window {converging : Bool} {observedQps : ℚ}
    (retreated : lane.retreatBelow converging observedQps now = some after) :
    SameWindow lane after := by
  exact same_window_from (set_rate_window retreated) ⟨rfl, rfl, rfl⟩

theorem judge_window_resets (judged : lane.judgeWindow now = some after) :
    SameWindow lane.resetWindow after := by
  rw [Lane.judgeWindow] at judged
  dsimp only at judged
  split at judged
  · exact same_window_from (relax_window judged) ⟨rfl, rfl, rfl⟩
  · exact same_window_from (undo_retreat_window judged) ⟨rfl, rfl, rfl⟩
  · exact same_window_from (retreat_below_window judged) ⟨rfl, rfl, rfl⟩

/-- Whichever way the loop body is left, it has taken the snapshot, and it has
started the window over exactly if that was long and full enough. -/
theorem tick_same_window (ticked : lane.tick current timeout seconds now = some after) :
    SameWindow (if (lane.accumulate current seconds).gathering timeout then
      lane.accumulate current seconds else (lane.accumulate current seconds).resetWindow) after := by
  rw [Lane.tick] at ticked
  split at ticked
  · rename_i short
    rw [if_pos short]
    exact relax_window ticked
  · rename_i long
    rw [if_neg long]
    split at ticked
    · exact relax_window ticked
    · exact judge_window_resets ticked

inductive Count where
  | attempted
  | lost
  | responded

def Count.of : Count → Observation → ℕ
  | .attempted, observation => observation.attempted
  | .lost, observation => observation.lost
  | .responded, observation => observation.responded

theorem accumulate_count (count : Count) (lane : Lane) (current : Observation) (seconds : ℚ) :
    count.of (lane.accumulate current seconds).window =
      count.of lane.window + (count.of current - count.of lane.perResolver) := by
  cases count <;> rfl

@[simp] theorem count_empty (count : Count) : count.of {} = 0 := by
  cases count <;> rfl

end Lanes

section Resolvers

def filledWindow (control : Control n) (input : TickInput n) (i : Fin n) : Lane :=
  (control.lane i).accumulate (observe (input.resolvers i)) input.seconds

def requestTimeout (input : TickInput n) (i : Fin n) : ℚ :=
  asSecs (input.resolvers i).requestTimeoutNs

def closes (control : Control n) (input : TickInput n) (i : Fin n) : Bool :=
  !(filledWindow control input i).gathering (requestTimeout input i)

def closedWindow (control : Control n) (input : TickInput n) (i : Fin n) : Option Lane :=
  if closes control input i then some (filledWindow control input i) else none

def closedTotal (count : Count) (inputs : ℕ → TickInput n) (states : ℕ → Control n) (i : Fin n)
    (time : ℕ) : ℕ :=
  ∑ step ∈ Finset.range time,
    (closedWindow (states step) (inputs step) i).elim 0 fun closed => count.of closed.window

def openedAt (inputs : ℕ → TickInput n) (states : ℕ → Control n) (i : Fin n) (time : ℕ) : ℕ :=
  Epochs.opened (fun step => closes (states step) (inputs step) i) time

/-- How long that window has lasted at the end of the tick, by the length each
tick goes by. -/
def lasted (length : TickInput n → ℚ) (inputs : ℕ → TickInput n) (states : ℕ → Control n)
    (i : Fin n) (time : ℕ) : ℚ :=
  ∑ step ∈ Finset.Ico (openedAt inputs states i time) (time + 1), length (inputs step)

/-- No counter that the controller reads ever decreases. -/
structure CountersGrow (inputs : ℕ → TickInput n) : Prop where
  resolvers : ∀ i (count : Count), Monotone fun time => count.of (observe ((inputs time).resolvers i))
  completed : Monotone fun time => (inputs time).outcomes.completed
  failed : Monotone fun time => (inputs time).outcomes.failed

theorem run_snapshot (run : ControlRun ceiling inputs states) (i : Fin n) :
    ((states 0).lane i).perResolver = {} ∧ ∀ time,
      ((states (time + 1)).lane i).perResolver = observe ((inputs time).resolvers i) := by
  constructor
  · rw [(Control.new_some run.fresh).2.2 i]
  · intro time
    have kept := (tick_same_window (Control.tick_lane (run.ticks time) i)).perResolver
    rw [kept]
    split <;> rfl

theorem snapshot_grows (run : ControlRun ceiling inputs states) (growing : CountersGrow inputs)
    (i : Fin n) (count : Count) :
    Monotone fun time => count.of ((states time).lane i).perResolver := by
  rcases run_snapshot run i with ⟨first, later⟩
  apply monotone_nat_of_le_succ
  intro time
  cases time with
  | zero => simp [first]
  | succ time =>
      rw [later, later]
      exact growing.resolvers i count (Nat.le_succ time)

theorem count_windowed (run : ControlRun ceiling inputs states) (i : Fin n) (count : Count) :
    Epochs.Windowed
      (fun step => count.of ((states (step + 1)).lane i).perResolver -
        count.of ((states step).lane i).perResolver)
      (fun time => count.of ((states time).lane i).window)
      (fun step => closes (states step) (inputs step) i) := by
  constructor
  · rw [(Control.new_some run.fresh).2.2 i]
    exact count_empty count
  · intro time
    have kept := (tick_same_window (Control.tick_lane (run.ticks time) i)).window
    rw [kept, (run_snapshot run i).2, closes, requestTimeout, filledWindow]
    cases (((states time).lane i).accumulate (observe ((inputs time).resolvers i))
        (inputs time).seconds).gathering (asSecs ((inputs time).resolvers i).requestTimeoutNs) with
    | true => exact accumulate_count count _ _ _
    | false => exact count_empty count

theorem seconds_windowed (run : ControlRun ceiling inputs states) (i : Fin n) :
    Epochs.Windowed (fun step => (inputs step).seconds)
      (fun time => ((states time).lane i).windowSeconds)
      (fun step => closes (states step) (inputs step) i) := by
  constructor
  · rw [(Control.new_some run.fresh).2.2 i]
  · intro time
    have kept := (tick_same_window (Control.tick_lane (run.ticks time) i)).windowSeconds
    rw [kept, closes, requestTimeout, filledWindow]
    cases (((states time).lane i).accumulate (observe ((inputs time).resolvers i))
        (inputs time).seconds).gathering (asSecs ((inputs time).resolvers i).requestTimeoutNs) with
    | true => rfl
    | false => rfl

theorem closed_total_sum (run : ControlRun ceiling inputs states) (i : Fin n) (count : Count)
    (time : ℕ) :
    closedTotal count inputs states i time =
      Epochs.closedSum
        (fun step => count.of ((states (step + 1)).lane i).perResolver -
          count.of ((states step).lane i).perResolver)
        (fun step => count.of ((states step).lane i).window)
        (fun step => closes (states step) (inputs step) i) time := by
  rw [closedTotal, Epochs.closedSum, Finset.sum_filter]
  apply Finset.sum_congr rfl
  intro step _
  rw [closedWindow, (run_snapshot run i).2]
  split
  · exact accumulate_count count _ _ _
  · rfl

/-- The duration the controller compares with the timeout is the time the window
has been open. -/
theorem filled_seconds (run : ControlRun ceiling inputs states) (i : Fin n) (time : ℕ) :
    (filledWindow (states time) (inputs time) i).windowSeconds =
      lasted TickInput.seconds inputs states i time := by
  have since := Epochs.level_since_opened (seconds_windowed run i) time
  rw [lasted, openedAt, Finset.sum_Ico_succ_top (Epochs.opened_le _ time), ← since]
  rfl

/-- What the windows of resolver i show after the first `time` ticks, and what the
next tick does with the open one. -/
structure ResolverAccount (inputs : ℕ → TickInput n) (states : ℕ → Control n) (i : Fin n)
    (time : ℕ) : Prop where
  -- closed windows and the open one add up to the counters of the last snapshot
  whole : ∀ count, closedTotal count inputs states i time +
    Count.of count ((states time).lane i).window = Count.of count ((states time).lane i).perResolver
  snapshot : ((states (time + 1)).lane i).perResolver = observe ((inputs time).resolvers i)
  -- a closed window is long enough, and full or five timeouts long
  long : ∀ closed, closedWindow (states time) (inputs time) i = some closed →
    requestTimeout (inputs time) i ≤ lasted TickInput.seconds inputs states i time ∧
      (100 ≤ closed.window.attempted ∨
        5 * requestTimeout (inputs time) i ≤ lasted TickInput.seconds inputs states i time)
  -- it is judged exactly when it is full; the lane then follows the verdict
  judged : ∀ closed, judgedWindow (states time) (inputs time) i = some closed ↔
    closedWindow (states time) (inputs time) i = some closed ∧ 100 ≤ closed.window.attempted
  verdict : ∀ closed, judgedWindow (states time) (inputs time) i = some closed →
    closed.judgeWindow (inputs time).now = some ((states (time + 1)).lane i)
  unjudged : ∀ closed, closedWindow (states time) (inputs time) i = some closed →
    judgedWindow (states time) (inputs time) i = none →
    closed.resetWindow.relax (inputs time).now = some ((states (time + 1)).lane i)
  -- nothing else starts the window over
  carried : closedWindow (states time) (inputs time) i = none →
    (filledWindow (states time) (inputs time) i).relax (inputs time).now =
      some ((states (time + 1)).lane i)

theorem closed_window_some {control : Control n} {input : TickInput n} {i : Fin n} {closed : Lane} :
    closedWindow control input i = some closed ↔
      filledWindow control input i = closed ∧
        (filledWindow control input i).gathering (requestTimeout input i) = false := by
  rw [closedWindow, closes]
  cases (filledWindow control input i).gathering (requestTimeout input i) <;> simp

theorem judged_window_some {control : Control n} {input : TickInput n} {i : Fin n} {closed : Lane} :
    judgedWindow control input i = some closed ↔
      closedWindow control input i = some closed ∧ 100 ≤ closed.window.attempted := by
  rw [closed_window_some]
  change (if (filledWindow control input i).gathering (requestTimeout input i) then none
    else if (filledWindow control input i).window.attempted < 100 then none
    else some (filledWindow control input i)) = some closed ↔ _
  split
  · rename_i short
    simp [short]
  · split
    · rename_i few
      constructor
      · simp
      · rintro ⟨⟨rfl, _⟩, enough⟩
        omega
    · rename_i long enough
      constructor
      · rintro ⟨⟩
        exact ⟨⟨rfl, by simpa using long⟩, by omega⟩
      · rintro ⟨⟨rfl, _⟩, _⟩
        rfl

theorem closed_long {lane : Lane} {timeout : ℚ} (closes : lane.gathering timeout = false) :
    timeout ≤ lane.windowSeconds ∧
      (100 ≤ lane.window.attempted ∨ 5 * timeout ≤ lane.windowSeconds) := by
  rcases Bool.or_eq_false_iff.mp closes with ⟨long, full⟩
  constructor
  · exact not_lt.mp (of_decide_eq_false long)
  · rcases Bool.and_eq_false_iff.mp full with enough | longer
    · exact Or.inl (not_lt.mp (of_decide_eq_false enough))
    · rw [mul_comm 5 timeout]
      exact Or.inr (not_lt.mp (of_decide_eq_false longer))

theorem tick_filled {control after : Control n} {input : TickInput n}
    (ticked : control.tick input = some after) (i : Fin n) :
    (if (filledWindow control input i).gathering (requestTimeout input i) then
        (filledWindow control input i).relax input.now
      else if (filledWindow control input i).window.attempted < 100 then
        (filledWindow control input i).resetWindow.relax input.now
      else (filledWindow control input i).judgeWindow input.now) = some (after.lane i) :=
  Control.tick_lane ticked i

theorem resolver_account (run : ControlRun ceiling inputs states) (growing : CountersGrow inputs)
    (i : Fin n) (time : ℕ) : ResolverAccount inputs states i time := by
  have ticked := tick_filled (run.ticks time) i
  constructor
  · intro count
    rw [closed_total_sum run]
    apply Epochs.closed_add_open_counter (snapshot_grows run growing i count) _
      (count_windowed run i count)
    rw [(run_snapshot run i).1]
    exact count_empty count
  · exact (run_snapshot run i).2 time
  · intro closed seen
    rcases closed_window_some.mp seen with ⟨rfl, enough⟩
    rw [← filled_seconds run i time]
    exact closed_long enough
  · exact fun closed => judged_window_some
  · intro closed judged
    rcases judged_window_some.mp judged with ⟨seen, enough⟩
    rcases closed_window_some.mp seen with ⟨rfl, long⟩
    rw [if_neg (by simp [long]), if_neg (Nat.not_lt.mpr enough)] at ticked
    exact ticked
  · intro closed seen unjudged
    rcases closed_window_some.mp seen with ⟨rfl, long⟩
    have few : (filledWindow (states time) (inputs time) i).window.attempted < 100 := by
      by_contra enough
      rw [judged_window_some.mpr ⟨seen, not_lt.mp enough⟩] at unjudged
      cases unjudged
    rw [if_neg (by simp [long]), if_pos few] at ticked
    exact ticked
  · intro short
    rw [closedWindow, closes] at short
    rw [if_pos (by simpa using short)] at ticked
    exact ticked

end Resolvers

section Global

inductive GlobalCount where
  | finished
  | failed
  | dispatched

def GlobalCount.of : GlobalCount → GlobalBrake → ℕ
  | .finished, brake => brake.globalWindow.attempted
  | .failed, brake => brake.globalWindow.lost
  | .dispatched, brake => brake.globalWindowDispatched

def GlobalCount.seen : GlobalCount → Control n → ℕ
  | .finished, control => control.controller.previousOutcomes.attempted
  | .failed, control => control.controller.previousOutcomes.lost
  | .dispatched, control => ∑ i, (control.lane i).perResolver.attempted

def judgedGlobal (control : Control n) (input : TickInput n) : Option GlobalBrake :=
  if 100 ≤ (fullWindow control input).globalWindow.attempted then some (fullWindow control input)
  else none

def judgedTotal (count : GlobalCount) (inputs : ℕ → TickInput n) (states : ℕ → Control n)
    (time : ℕ) : ℕ :=
  ∑ step ∈ Finset.range time, (judgedGlobal (states step) (inputs step)).elim 0 count.of

theorem tick_attempts (control : Control n) (input : TickInput n) :
    (control.tickTotals input).attempted =
      ∑ i, ((observe (input.resolvers i)).attempted - (control.lane i).perResolver.attempted) := by
  have counted : ∀ (order : List (Fin n)) (totals : Control.Totals),
      (order.foldl (fun totals i => Control.resolverCount input i (control.lane i) totals)
        totals).attempted = totals.attempted + (order.map fun i =>
          (observe (input.resolvers i)).attempted - (control.lane i).perResolver.attempted).sum := by
    intro order
    induction order with
    | nil => simp
    | cons i rest ih =>
        intro totals
        rw [List.foldl_cons, ih, List.map_cons, List.sum_cons, ← add_assoc]
        rfl
  rw [Control.tickTotals, counted, Fin.sum_univ_def]
  exact Nat.zero_add _

/-- A judged window is started over by each of its verdicts. -/
theorem judge_window_starts_over {brake after : GlobalBrake}
    (judged : brake.judgeWindow = some after) :
    after.previousOutcomes = brake.previousOutcomes ∧ ∀ count : GlobalCount, count.of after = 0 := by
  rcases judge_window_moves judged with ⟨limit, global, rfl⟩
  exact ⟨rfl, fun count => by cases count <;> rfl⟩

theorem tick_global_counts {control after : Control n} {input : TickInput n}
    (ticked : control.tick input = some after) :
    after.controller.previousOutcomes =
        { attempted := input.outcomes.completed, lost := input.outcomes.failed } ∧
      ∀ count : GlobalCount, count.of after.controller.toGlobalBrake =
        if (judgedGlobal control input).isSome then 0 else count.of (fullWindow control input) := by
  by_cases enough : ClosesWindow control input
  · rcases judge_window_starts_over (tick_closed ticked enough) with ⟨outcomes, reset⟩
    have judged : judgedGlobal control input = some (fullWindow control input) := if_pos enough
    exact ⟨outcomes, fun count => by rw [judged]; exact reset count⟩
  · have carried : judgedGlobal control input = none := if_neg enough
    rw [tick_open ticked enough, carried]
    exact ⟨rfl, fun count => rfl⟩

/-- Each count of the global window grows by what the tick has newly seen. -/
theorem full_window_counts (run : ControlRun ceiling inputs states) (growing : CountersGrow inputs)
    (time : ℕ) (count : GlobalCount) :
    count.of (fullWindow (states time) (inputs time)) =
      count.of (states time).controller.toGlobalBrake +
        (count.seen (states (time + 1)) - count.seen (states time)) := by
  have outcomes := (tick_global_counts (run.ticks time)).1
  cases count with
  | finished => simp only [GlobalCount.seen, outcomes]; rfl
  | failed => simp only [GlobalCount.seen, outcomes]; rfl
  | dispatched =>
      have grown : ((states time).tickTotals (inputs time)).attempted =
          GlobalCount.dispatched.seen (states (time + 1)) -
            GlobalCount.dispatched.seen (states time) := by
        rw [tick_attempts, GlobalCount.seen, GlobalCount.seen, ← Finset.sum_tsub_distrib]
        · simp only [(run_snapshot run _).2 time]
        · intro i _
          exact snapshot_grows run growing i .attempted (Nat.le_succ time)
      rw [← grown]
      rfl

theorem seen_fresh (run : ControlRun ceiling inputs states) (count : GlobalCount) :
    count.seen (states 0) = 0 ∧ count.of (states 0).controller.toGlobalBrake = 0 := by
  rcases Control.new_some run.fresh with ⟨_, brake, lanes⟩
  cases count with
  | finished => rw [GlobalCount.seen, brake]; exact ⟨rfl, rfl⟩
  | failed => rw [GlobalCount.seen, brake]; exact ⟨rfl, rfl⟩
  | dispatched => rw [brake]; exact ⟨by simp [GlobalCount.seen, lanes], rfl⟩

theorem seen_grows (run : ControlRun ceiling inputs states) (growing : CountersGrow inputs)
    (count : GlobalCount) : Monotone fun time => count.seen (states time) := by
  apply monotone_nat_of_le_succ
  intro time
  cases time with
  | zero => simp [seen_fresh run count]
  | succ time =>
      have before := (tick_global_counts (run.ticks time)).1
      have after := (tick_global_counts (run.ticks (time + 1))).1
      cases count with
      | finished =>
          simp only [GlobalCount.seen, before, after]
          exact growing.completed (Nat.le_succ time)
      | failed =>
          simp only [GlobalCount.seen, before, after]
          exact growing.failed (Nat.le_succ time)
      | dispatched =>
          apply Finset.sum_le_sum
          intro i _
          exact snapshot_grows run growing i .attempted (Nat.le_succ (time + 1))

theorem global_windowed (run : ControlRun ceiling inputs states) (growing : CountersGrow inputs)
    (count : GlobalCount) :
    Epochs.Windowed (fun step => count.seen (states (step + 1)) - count.seen (states step))
      (fun time => count.of (states time).controller.toGlobalBrake)
      (fun step => (judgedGlobal (states step) (inputs step)).isSome) := by
  constructor
  · exact (seen_fresh run count).2
  · intro time
    rw [(tick_global_counts (run.ticks time)).2 count, full_window_counts run growing]

/-- What the global windows show after the first `time` ticks, and what the next
tick does with the open one. -/
structure GlobalAccount (inputs : ℕ → TickInput n) (states : ℕ → Control n) (time : ℕ) : Prop where
  -- judged windows and the open one add up to what has been seen
  whole : ∀ count, judgedTotal count inputs states time +
    GlobalCount.of count (states time).controller.toGlobalBrake = count.seen (states time)
  seen : (states (time + 1)).controller.previousOutcomes =
    { attempted := (inputs time).outcomes.completed, lost := (inputs time).outcomes.failed }
  -- the open window has not been full yet, so a tick that finds it full is the first
  first : (states time).controller.globalWindow.attempted < 100
  judged : ∀ full, judgedGlobal (states time) (inputs time) = some full →
    full.judgeWindow = some (states (time + 1)).controller.toGlobalBrake
  carried : judgedGlobal (states time) (inputs time) = none →
    (states (time + 1)).controller.toGlobalBrake = fullWindow (states time) (inputs time)

theorem open_window_short (run : ControlRun ceiling inputs states) (time : ℕ) :
    (states time).controller.globalWindow.attempted < 100 := by
  cases time with
  | zero =>
      have fresh : (states 0).controller.globalWindow.attempted = 0 := (seen_fresh run .finished).2
      omega
  | succ time =>
      have counted : (states (time + 1)).controller.globalWindow.attempted =
          if (judgedGlobal (states time) (inputs time)).isSome then 0
          else (fullWindow (states time) (inputs time)).globalWindow.attempted :=
        (tick_global_counts (run.ticks time)).2 .finished
      rw [counted, judgedGlobal]
      by_cases enough : 100 ≤ (fullWindow (states time) (inputs time)).globalWindow.attempted
      · simp [enough]
      · simp [enough]
        omega

theorem global_account (run : ControlRun ceiling inputs states) (growing : CountersGrow inputs)
    (time : ℕ) : GlobalAccount inputs states time := by
  constructor
  · intro count
    have sums : judgedTotal count inputs states time =
        Epochs.closedSum (fun step => count.seen (states (step + 1)) - count.seen (states step))
          (fun step => count.of (states step).controller.toGlobalBrake)
          (fun step => (judgedGlobal (states step) (inputs step)).isSome) time := by
      rw [judgedTotal, Epochs.closedSum, Finset.sum_filter]
      apply Finset.sum_congr rfl
      intro step _
      rw [← full_window_counts run growing, judgedGlobal]
      split <;> rfl
    rw [sums]
    exact Epochs.closed_add_open_counter (seen_grows run growing count) (seen_fresh run count).1
      (global_windowed run growing count) time
  · exact (tick_global_counts (run.ticks time)).1
  · exact open_window_short run time
  · intro full judged
    rw [judgedGlobal] at judged
    split at judged
    · rename_i enough
      cases judged
      exact tick_closed (run.ticks time) enough
    · cases judged
  · intro carried
    rw [judgedGlobal] at carried
    split at carried
    · cases carried
    · rename_i few
      exact tick_open (run.ticks time) few

end Global

/-- In every run over counters that never decrease, every resolver's windows and
the global ones account for all that was counted, and each is closed and judged
when it should be. A tick goes by at least a microsecond. -/
theorem windows_account_for_all (run : ControlRun ceiling inputs states)
    (growing : CountersGrow inputs) (time : ℕ) :
    (∀ i, ResolverAccount inputs states i time) ∧ GlobalAccount inputs states time :=
  ⟨fun i => resolver_account run growing i time, global_account run growing time⟩

theorem lossy_counters_grow : CountersGrow lossyInputs where
  resolvers := by
    intro i count early late order
    cases count <;> simp [Count.of, observe, lossyInputs] <;> omega
  completed := by
    intro early late order
    simp [lossyInputs]
    omega
  failed := by
    intro early late order
    simp [lossyInputs]
    omega

theorem windows_account_for_all_lossy :
    ∃ states, ControlRun 1000 lossyInputs states ∧ ∀ time,
      (∀ i, ResolverAccount lossyInputs states i time) ∧ GlobalAccount lossyInputs states time := by
  rcases control_run_exists (by norm_num : (0 : ℚ) < 1000) lossyInputs with ⟨states, run⟩
  exact ⟨states, run, fun time => windows_account_for_all run lossy_counters_grow time⟩

/-- A resolver with a timeout of one microsecond, whose ticks take no time. -/
def instantInputs (_time : ℕ) : TickInput 1 where
  elapsedNs := 0
  now := 0
  resolvers _ :=
    { resolver := .v4 ⟨127, 0, 0, 1⟩ 53
      requestTimeoutNs := 1000
      purgatoryThreshold := 0
      purgatorySentenceNs := 0
      inflight := 1
      limiter := ⟨1⟩
      attempted := 100 }
  outcomes := {}
  waiting := 0

theorem instant_counters_grow : CountersGrow instantInputs where
  resolvers _ _ _ _ _ := le_rfl
  completed _ _ _ := le_rfl
  failed _ _ _ := le_rfl

/-- By the clock the window has not lasted at all, and yet it is closed. -/
theorem instant_window_closed :
    ∃ states, ControlRun 1000 instantInputs states ∧ CountersGrow instantInputs ∧
      (closedWindow (states 0) (instantInputs 0) 0).isSome ∧
      lasted (fun input => asSecs input.elapsedNs) instantInputs states 0 0 <
        requestTimeout (instantInputs 0) 0 := by
  rcases control_run_exists (by norm_num : (0 : ℚ) < 1000) instantInputs with ⟨states, run⟩
  refine ⟨states, run, instant_counters_grow, ?_, ?_⟩
  · have fresh := (Control.new_some run.fresh).2.2 0
    rw [closedWindow, closes, filledWindow, fresh]
    decide +kernel
  · norm_num [lasted, openedAt, Epochs.opened, requestTimeout, instantInputs, asSecs]

end BlastDns.WindowAccounts
