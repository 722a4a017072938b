import BlastDns.AttemptControl
import BlastDns.ControlRuns

/-!
The rate of a resolver cannot ratchet. A step is recorded in `stepped`, and
below 10^8 queries per second the nanosecond grid is fine enough that the flag
means what it says: a recorded step widens the interval, and holding the same
edge is never recorded as one. Only a window that follows a recorded step may
step again; after any other window the edge keeps its age until it expires.
-/

namespace BlastDns.NoRatchet

open Limiter Judge Brake LaneTick Controller LaneCoherence ControlRuns AttemptControl Runs

def maxObservedQps : ℚ := 10 ^ 8

/-- A coherent lane whose edges, standing or remembered, are within the grid, and
whose recorded step lies below the rate it came from. -/
structure Bounded (lane : Lane) : Prop where
  coherent : Coherent lane
  edge : ∀ edge, lane.edge = some edge → edge.qps ≤ maxObservedQps
  undo : ∀ edge rate, lane.undo = some (some edge, rate) → edge.qps ≤ maxObservedQps
  lowered : lane.stepped = true → lane.edge.isSome → ∀ edge rate, lane.undo = some (edge, rate) →
    lane.limiter.rate < rate

theorem bounded_fresh : Bounded { limiter := ⟨1⟩ } where
  coherent := coherent_fresh
  edge := by simp
  undo := by simp
  lowered := by simp

section Grid

theorem target_le {edge : Edge} (bounded : edge.qps ≤ maxObservedQps) :
    target edge ≤ 85 / 100 * 10 ^ 8 := by
  apply max_le
  · norm_num [retreat, maxObservedQps] at bounded ⊢
    linarith
  · norm_num [minRateQps]

/-- A target clearly below the rate in force selects a longer interval: at these
rates the interval is at least eleven ticks, and half a tick is less than the
margin. -/
theorem step_widens {edge : Edge} {limiter : RateLimiter} (bounded : edge.qps ≤ maxObservedQps)
    (lower : 1 ≤ limiter.intervalNs)
    (clear : target edge < limiter.rate * (1 + retreat) / 2) :
    limiter.intervalNs < pacingInterval (target edge) := by
  have targetPos := target_pos edge
  have ticksPos : (0 : ℚ) < limiter.intervalNs := by exact_mod_cast lower
  have wide : 10 ≤ nanosPerSecond / target edge := by
    rw [le_div_iff₀ targetPos]
    have := target_le bounded
    norm_num [nanosPerSecond]
    linarith
  have fits : nanosPerSecond / target edge ≤ u64Max := by
    have second : nanosPerSecond / target edge ≤ nanosPerSecond / 1 :=
      div_le_div_of_nonneg_left nanos_pos.le one_pos (target_floor edge)
    apply le_trans second
    norm_num [nanosPerSecond, u64Max]
  have rounded : nanosPerSecond / target edge - 1 / 2 < (pacingInterval (target edge) : ℚ) :=
    Quantised.ticks_lower fits
  -- `stepped` asks for a target below 0.925 of the rate in force
  have margin : (limiter.intervalNs : ℚ) < nanosPerSecond / target edge * (925 / 1000) := by
    have scaled : target edge * limiter.intervalNs < nanosPerSecond * (925 / 1000) := by
      have inForce : limiter.rate * limiter.intervalNs = nanosPerSecond :=
        div_mul_cancel₀ _ ticksPos.ne'
      have multiplied := mul_lt_mul_of_pos_right clear ticksPos
      norm_num [retreat] at multiplied
      linarith
    rw [div_mul_eq_mul_div, lt_div_iff₀ targetPos]
    linarith
  have below : (limiter.intervalNs : ℚ) < pacingInterval (target edge) := by linarith
  exact_mod_cast below

theorem step_lowers {edge : Edge} {limiter : RateLimiter} (bounded : edge.qps ≤ maxObservedQps)
    (lower : 1 ≤ limiter.intervalNs)
    (clear : target edge < limiter.rate * (1 + retreat) / 2) :
    RateLimiter.rate ⟨pacingInterval (target edge)⟩ < limiter.rate :=
  (rate_lt_iff lower (pacing_interval_pos _)).mpr (step_widens bounded lower clear)

/-- Pacing at the target already is not a step, whatever the rounding did. -/
theorem held_not_step {edge : Edge} (bounded : edge.qps ≤ maxObservedQps) :
    ¬ target edge <
      RateLimiter.rate ⟨pacingInterval (target edge)⟩ * (1 + retreat) / 2 := fun clear =>
  lt_irrefl _ (step_widens bounded (pacing_interval_pos (target edge)) clear)

end Grid

section Steps

variable {lane : Lane}

theorem next_edge_bounded (bounded : ∀ edge, lane.edge = some edge → edge.qps ≤ maxObservedQps)
    (converging : Bool) {observedQps : ℚ} (slow : observedQps ≤ maxObservedQps) (now : ℕ) :
    (lane.nextEdge converging observedQps now).qps ≤ maxObservedQps := by
  rw [Lane.nextEdge]
  cases standing : lane.edge with
  | none => exact slow
  | some edge =>
      have old := bounded edge standing
      dsimp only
      split
      · exact le_trans (min_le_left _ _) old
      · exact old

theorem expire_bounded (bounded : Bounded lane) (now : ℕ) : Bounded (expire lane now) := by
  refine ⟨expire_coherent bounded.coherent now, ?_, ?_, ?_⟩ <;> rw [expire] <;> split
  · exact bounded.edge
  · split
    · simp
    · exact bounded.edge
  · exact bounded.undo
  · split
    · exact bounded.undo
    · exact bounded.undo
  · exact bounded.lowered
  · split
    · simp
    · exact bounded.lowered

theorem take_back_bounded (bounded : Bounded lane) (ended : lane.judge.best = none) :
    Bounded (takeBack lane) := by
  refine ⟨take_back_coherent bounded.coherent ended, ?_, ?_, ?_⟩ <;> rw [takeBack] <;> split
  · rename_i restored rate stepped stored
    intro edge same
    subst same
    exact bounded.undo edge rate stored
  · exact bounded.edge
  · simp
  · exact bounded.undo
  · simp
  · simp

theorem rate_le_unlimited {limiter : RateLimiter} (lower : 1 ≤ limiter.intervalNs) :
    limiter.rate ≤ RateLimiter.rate ⟨1⟩ := by
  have whole : (1 : ℚ) ≤ limiter.intervalNs := by exact_mod_cast lower
  rw [RateLimiter.rate, RateLimiter.rate, Nat.cast_one]
  exact div_le_div_of_nonneg_left nanos_pos.le one_pos whole

theorem expire_rate (coherent : Coherent lane) (now : ℕ) :
    lane.limiter.rate ≤ (expire lane now).limiter.rate := by
  rw [expire]
  split
  · exact le_rfl
  · split
    · exact rate_le_unlimited (coherent_interval_range coherent.paced).1
    · exact le_rfl

theorem take_back_rate (bounded : Bounded lane) (standing : lane.edge.isSome) :
    lane.limiter.rate ≤ (takeBack lane).limiter.rate := by
  rw [takeBack]
  split
  · rename_i edge rate stepped stored
    rcases bounded.coherent.undo _ stored with ⟨limiter, read, paced⟩
    change rate = limiter.rate at read
    have restored : pacingInterval rate = limiter.intervalNs := by
      rw [read]
      exact (coherent_rate paced).2
    -- the pair was stored by a step that really went down
    have raised := bounded.lowered stepped standing edge rate stored
    rw [read] at raised
    change lane.limiter.rate ≤ RateLimiter.rate ⟨pacingInterval rate⟩
    rw [restored]
    exact raised.le
  · exact le_rfl

/-- Without a shaped, converging window the edge and the pacing are held. -/
theorem step_down_held (lane : Lane) {converging : Bool} {observedQps : ℚ} (now : ℕ) {edge : Edge}
    (paced : CoherentInterval lane.edge lane.limiter.intervalNs)
    (standing : lane.edge = some edge)
    (unshaped : ¬ (converging = true ∧ lane.stepped = true ∧
      retreat * lane.limiter.rate ≤ observedQps)) :
    lane.nextEdge converging observedQps now = edge ∧
      lane.limiter = ⟨pacingInterval (target edge)⟩ := by
  constructor
  · simp only [Lane.nextEdge, standing]
    apply if_neg
    simpa using unshaped
  · rw [standing] at paced
    have stored : lane.limiter.intervalNs = pacingInterval (target edge) := paced
    rw [← stored]

/-- A recorded step really lowers the rate. -/
theorem step_down_lowers (lane : Lane) (lower : 1 ≤ lane.limiter.intervalNs)
    (edges : ∀ edge, lane.edge = some edge → edge.qps ≤ maxObservedQps) {converging : Bool}
    {observedQps : ℚ} (slow : observedQps ≤ maxObservedQps) {now : ℕ}
    (stepped : (stepDown lane converging observedQps now).stepped = true) :
    (stepDown lane converging observedQps now).limiter.rate < lane.limiter.rate :=
  step_lowers (next_edge_bounded edges converging slow now) lower (of_decide_eq_true stepped)

theorem step_down_bounded {closed : Lane} (bounded : Bounded closed) (converging : Bool)
    {observedQps : ℚ} (slow : observedQps ≤ maxObservedQps) (now : ℕ) :
    Bounded (stepDown (afterVerdict closed) converging observedQps now) := by
  have coherent := bounded.coherent
  refine ⟨step_down_coherent (afterVerdict closed) coherent.paced coherent.undo converging _ now,
    ?_, ?_, ?_⟩
  · intro edge same
    cases same
    exact next_edge_bounded bounded.edge converging slow now
  · intro edge rate stored
    rw [step_down_undo] at stored
    split at stored
    · exact bounded.edge edge (congrArg Prod.fst (Option.some.inj stored))
    · exact bounded.undo edge rate stored
  · intro stepped _ edge rate stored
    rw [step_down_undo, if_pos stepped] at stored
    cases stored
    exact step_down_lowers (afterVerdict closed) (coherent_interval_range coherent.paced).1
      bounded.edge slow stepped

end Steps

section Ticks

variable {lane after : Lane} {current : Observation} {timeout seconds : ℚ} {now : ℕ}

theorem bounded_window (bounded : Bounded lane) (perResolver window : Observation)
    (windowSeconds : ℚ) :
    Bounded { lane with
      perResolver := perResolver, window := window, windowSeconds := windowSeconds } :=
  ⟨coherent_window bounded.coherent _ _ _, bounded.edge, bounded.undo, bounded.lowered⟩

theorem bounded_unstepped (bounded : Bounded lane) : Bounded { lane with stepped := false } :=
  ⟨coherent_unstepped bounded.coherent, bounded.edge, bounded.undo, by simp⟩

theorem after_verdict_bounded {closed : Lane} (bounded : Bounded closed)
    (quiet : closed.verdict.isCongested = false) : Bounded (afterVerdict closed) :=
  ⟨(after_verdict_coherent bounded.coherent quiet).1, bounded.edge, bounded.undo, bounded.lowered⟩

theorem tick_bounded (bounded : Bounded lane)
    (slow : ∀ closed, lane.judged current timeout seconds = some closed →
      closed.observedQps ≤ maxObservedQps)
    (ticked : lane.tick current timeout seconds now = some after) : Bounded after := by
  rcases ticked_cases bounded.coherent ticked with
    ⟨_, window, windowSeconds, _, same⟩ | ⟨closed, judged, opened, outcome⟩
  · rw [same]
    exact expire_bounded (bounded_window bounded _ _ _) now
  · have kept : Bounded closed := by
      rw [opened]
      exact bounded_window bounded _ _ _
    rcases outcome with ⟨verdict, same⟩ | ⟨verdict, same⟩ | ⟨converging, verdict, same⟩
    · have quiet : closed.verdict.isCongested = false := by simp [verdict, Verdict.isCongested]
      rw [same]
      exact expire_bounded (bounded_unstepped (after_verdict_bounded kept quiet)) now
    · have quiet : closed.verdict.isCongested = false := by simp [verdict, Verdict.isCongested]
      rw [same]
      exact take_back_bounded (after_verdict_bounded kept quiet)
        (after_verdict_coherent kept.coherent quiet).2
    · rw [same]
      exact step_down_bounded kept converging (slow closed judged) now

/-- While an edge stands, only a shaped window of a converging episode lowers the
rate. -/
theorem fall_needs_step (bounded : Bounded lane)
    (ticked : lane.tick current timeout seconds now = some after)
    (standing : lane.edge.isSome) (falls : after.limiter.rate < lane.limiter.rate) :
    ∃ closed, lane.judged current timeout seconds = some closed ∧
      closed.verdict = .congested true ∧ lane.stepped = true ∧
      retreat * lane.limiter.rate ≤ closed.observedQps := by
  rcases ticked_cases bounded.coherent ticked with
    ⟨_, window, windowSeconds, _, same⟩ | ⟨closed, judged, opened, outcome⟩
  · rw [same] at falls
    exact absurd falls
      (not_lt_of_ge (expire_rate (coherent_window bounded.coherent _ _ _) now))
  · have kept : Bounded closed := by
      rw [opened]
      exact bounded_window bounded _ _ _
    have rate : lane.limiter = closed.limiter := by rw [opened]; rfl
    have flag : lane.stepped = closed.stepped := by rw [opened]; rfl
    have edge : lane.edge = closed.edge := by rw [opened]; rfl
    rw [rate] at falls
    rw [edge] at standing
    rw [rate, flag]
    rcases outcome with ⟨verdict, same⟩ | ⟨verdict, same⟩ | ⟨converging, verdict, same⟩
    · have quiet : closed.verdict.isCongested = false := by simp [verdict, Verdict.isCongested]
      have cleared := (after_verdict_coherent kept.coherent quiet).1
      rw [same] at falls
      exact absurd falls (not_lt_of_ge (expire_rate (coherent_unstepped cleared) now))
    · have quiet : closed.verdict.isCongested = false := by simp [verdict, Verdict.isCongested]
      rw [same] at falls
      exact absurd falls
        (not_lt_of_ge (take_back_rate (after_verdict_bounded kept quiet) standing))
    · -- only the branch that takes the current rate as the edge can lower it
      rcases Option.isSome_iff_exists.mp standing with ⟨edge, standing⟩
      by_cases shaped : converging = true ∧ closed.stepped = true ∧
          retreat * closed.limiter.rate ≤ closed.observedQps
      · rcases shaped with ⟨rfl, stepped, hit⟩
        exact ⟨closed, judged, verdict, stepped, hit⟩
      · rcases step_down_held (afterVerdict closed) now kept.coherent.paced standing shaped with
          ⟨held, limiter⟩
        have unmoved : after.limiter = closed.limiter := by
          rw [same, stepDown, held]
          exact limiter.symm
        rw [unmoved] at falls
        exact absurd falls (lt_irrefl _)

theorem expire_stepped (lane : Lane) (now : ℕ) : (expire lane now).stepped = lane.stepped := by
  rw [expire]
  split
  · rfl
  · split <;> rfl

theorem take_back_stepped (lane : Lane) : (takeBack lane).stepped = false := by
  rw [takeBack]
  split <;> rfl

theorem flag_quiet (coherent : Coherent lane)
    (ticked : lane.tick current timeout seconds now = some after)
    (unjudged : lane.judged current timeout seconds = none) : after.stepped = lane.stepped := by
  rcases ticked_cases coherent ticked with ⟨_, _, _, _, same⟩ | ⟨closed, judged, _⟩
  · rw [same, expire_stepped]
  · rw [unjudged] at judged
    cases judged

theorem expire_window (lane : Lane) (now : ℕ) :
    (expire lane now).perResolver = lane.perResolver ∧ (expire lane now).window = lane.window := by
  rw [expire]
  split
  · exact ⟨rfl, rfl⟩
  · split <;> exact ⟨rfl, rfl⟩

theorem take_back_window (lane : Lane) :
    (takeBack lane).perResolver = lane.perResolver ∧ (takeBack lane).window = lane.window := by
  rw [takeBack]
  split <;> exact ⟨rfl, rfl⟩

theorem tick_window (coherent : Coherent lane)
    (ticked : lane.tick current timeout seconds now = some after) :
    after.perResolver = current ∧
      (after.window = (lane.accumulate current seconds).window ∨ after.window = {}) := by
  rcases ticked_cases coherent ticked with
    ⟨_, window, windowSeconds, found, same⟩ | ⟨closed, _, opened, outcome⟩
  · rw [same, (expire_window _ now).1, (expire_window _ now).2]
    exact ⟨rfl, found⟩
  · have snapshot : closed.perResolver = current := by rw [opened]; rfl
    rcases outcome with ⟨_, same⟩ | ⟨_, same⟩ | ⟨converging, _, same⟩
    · rw [same, (expire_window _ now).1, (expire_window _ now).2]
      exact ⟨snapshot, Or.inr rfl⟩
    · rw [same, (take_back_window _).1, (take_back_window _).2]
      exact ⟨snapshot, Or.inr rfl⟩
    · rw [same]
      exact ⟨snapshot, Or.inr rfl⟩

/-- The window `closed` ended in a recorded step that really lowered the rate. -/
def StepsDown (closed before after : Lane) : Prop :=
  closed.verdict.isCongested = true ∧ after.stepped = true ∧
    after.limiter.rate < before.limiter.rate

theorem flag_raised (bounded : Bounded lane)
    (ticked : lane.tick current timeout seconds now = some after) {closed : Lane}
    (judged : lane.judged current timeout seconds = some closed)
    (slow : closed.observedQps ≤ maxObservedQps) (stepped : after.stepped = true) :
    StepsDown closed lane after := by
  rcases ticked_cases bounded.coherent ticked with ⟨unjudged, _⟩ | ⟨other, seen, opened, outcome⟩
  · rw [judged] at unjudged
    cases unjudged
  · rw [judged] at seen
    cases seen
    rcases outcome with ⟨_, same⟩ | ⟨_, same⟩ | ⟨converging, verdict, same⟩
    · rw [same, expire_stepped] at stepped
      cases stepped
    · rw [same, take_back_stepped] at stepped
      cases stepped
    · have rate : lane.limiter = closed.limiter := by rw [opened]; rfl
      have kept : Bounded closed := by
        rw [opened]
        exact bounded_window bounded _ _ _
      refine ⟨by rw [verdict]; rfl, stepped, ?_⟩
      rw [same] at stepped
      rw [same, rate]
      exact step_down_lowers (afterVerdict closed)
        (coherent_interval_range kept.coherent.paced).1 kept.edge slow stepped

/-- The tick reaches `relax`: it judges nothing, or judges a window clear. -/
def Relaxes (lane : Lane) (current : Observation) (timeout seconds : ℚ) : Prop :=
  ∀ closed, lane.judged current timeout seconds = some closed → closed.verdict = .clear

structure Settled (edge : Edge) (limiter : RateLimiter) (lane : Lane) : Prop where
  unstepped : lane.stepped = false
  standing : lane.edge = some edge
  pacing : lane.limiter = limiter

theorem expire_settled {edge : Edge} {limiter : RateLimiter} (settled : Settled edge limiter lane)
    (now : ℕ) :
    (edge.seenAt + edgeTtlNs ≤ now → (expire lane now).edge = none) ∧
      (¬ edge.seenAt + edgeTtlNs ≤ now → Settled edge limiter (expire lane now)) := by
  have aged : edgeTtlNs ≤ now - edge.seenAt ↔ edge.seenAt + edgeTtlNs ≤ now := by
    have : 0 < edgeTtlNs := by norm_num [edgeTtlNs]
    omega
  constructor
  · intro stale
    simp [expire, settled.standing, aged.mpr stale]
  · intro young
    have same : expire lane now = lane := by
      simp only [expire, settled.standing]
      exact if_neg fun old => young (aged.mp old)
    rw [same]
    exact settled

theorem take_back_settled {edge : Edge} {limiter : RateLimiter}
    (settled : Settled edge limiter lane) : Settled edge limiter (takeBack lane) := by
  have idle : takeBack lane = { lane with stepped := false } := by
    simp [takeBack, settled.unstepped]
  rw [idle]
  exact ⟨rfl, settled.standing, settled.pacing⟩

theorem step_down_settled {edge : Edge} {limiter : RateLimiter}
    (settled : Settled edge limiter lane)
    (paced : CoherentInterval lane.edge lane.limiter.intervalNs)
    (bounded : edge.qps ≤ maxObservedQps) (converging : Bool) (observedQps : ℚ) :
    Settled edge limiter (stepDown lane converging observedQps now) := by
  have unshaped : ¬ (converging = true ∧ lane.stepped = true ∧
      retreat * lane.limiter.rate ≤ observedQps) := by
    rintro ⟨_, stepped, _⟩
    rw [settled.unstepped] at stepped
    cases stepped
  rcases step_down_held lane now paced settled.standing unshaped with ⟨held, pacing⟩
  constructor
  · -- the target is recomputed from the same edge, so no step is recorded
    rw [stepDown, held, pacing]
    exact decide_eq_false (held_not_step bounded)
  · rw [stepDown, held]
  · rw [stepDown, held, ← settled.pacing]
    exact pacing.symm

theorem settled_step (bounded : Bounded lane)
    (ticked : lane.tick current timeout seconds now = some after) {edge : Edge}
    {limiter : RateLimiter} (settled : Settled edge limiter lane) :
    (Relaxes lane current timeout seconds ∧ edge.seenAt + edgeTtlNs ≤ now → after.edge = none) ∧
      (¬ (Relaxes lane current timeout seconds ∧ edge.seenAt + edgeTtlNs ≤ now) →
        Settled edge limiter after) := by
  rcases settled with ⟨unstepped, standing, pacing⟩
  rcases ticked_cases bounded.coherent ticked with
    ⟨unjudged, window, windowSeconds, _, same⟩ | ⟨closed, judged, opened, outcome⟩
  · have relaxes : Relaxes lane current timeout seconds := by simp [Relaxes, unjudged]
    have quiet : Settled edge limiter { lane with
        perResolver := current, window := window, windowSeconds := windowSeconds } :=
      ⟨unstepped, standing, pacing⟩
    rcases expire_settled quiet now with ⟨drops, keeps⟩
    rw [same]
    exact ⟨fun due => drops due.2, fun early => keeps fun stale => early ⟨relaxes, stale⟩⟩
  · have held : Settled edge limiter (afterVerdict closed) := by
      rw [opened]
      exact ⟨unstepped, standing, pacing⟩
    have paced : CoherentInterval (afterVerdict closed).edge
        (afterVerdict closed).limiter.intervalNs := by
      rw [opened]
      exact bounded.coherent.paced
    -- of the three verdicts only a clear one relaxes, the other two leave the age alone
    rcases outcome with ⟨verdict, same⟩ | ⟨verdict, same⟩ | ⟨converging, verdict, same⟩
    · have relaxes : Relaxes lane current timeout seconds := by simp [Relaxes, judged, verdict]
      have cleared : Settled edge limiter { afterVerdict closed with stepped := false } :=
        ⟨rfl, held.standing, held.pacing⟩
      rcases expire_settled cleared now with ⟨drops, keeps⟩
      rw [same]
      exact ⟨fun due => drops due.2, fun early => keeps fun stale => early ⟨relaxes, stale⟩⟩
    · have busy : ¬ Relaxes lane current timeout seconds := by simp [Relaxes, judged, verdict]
      rw [same]
      exact ⟨fun due => absurd due.1 busy, fun _ => take_back_settled held⟩
    · have busy : ¬ Relaxes lane current timeout seconds := by simp [Relaxes, judged, verdict]
      rw [same]
      exact ⟨fun due => absurd due.1 busy,
        fun _ => step_down_settled held paced (bounded.edge edge standing) converging _⟩

end Ticks

section Runs

variable {n : ℕ} {ceiling : ℚ} {inputs : ℕ → TickInput n} {states : ℕ → Control n}

def judgedWindow (control : Control n) (input : TickInput n) (i : Fin n) : Option Lane :=
  (control.lane i).judged (observe (input.resolvers i))
    (asSecs (input.resolvers i).requestTimeoutNs) input.seconds

def Relaxed (control : Control n) (input : TickInput n) (i : Fin n) : Prop :=
  Relaxes (control.lane i) (observe (input.resolvers i))
    (asSecs (input.resolvers i).requestTimeoutNs) input.seconds

def ObservedWithin (inputs : ℕ → TickInput n) (states : ℕ → Control n) (i : Fin n) : Prop :=
  ∀ time closed, judgedWindow (states time) (inputs time) i = some closed →
    closed.observedQps ≤ maxObservedQps

theorem run_bounded (run : ControlRun ceiling inputs states) {i : Fin n}
    (slow : ObservedWithin inputs states i) (time : ℕ) : Bounded ((states time).lane i) := by
  let within : Control n → TickInput n → Prop := fun control input =>
    ∀ closed, judgedWindow control input i = some closed → closed.observedQps ≤ maxObservedQps
  apply run_invariant_along (fun control => Bounded (control.lane i)) within _ run.ticks _ slow
  · intro before input after bounded small ticked
    exact tick_bounded bounded small (Control.tick_lane ticked i)
  · rw [(Control.new_some run.fresh).2.2 i]
    exact bounded_fresh

/-- The flag was raised by the latest judged window, and for a real step. -/
theorem flag_traced (run : ControlRun ceiling inputs states) {i : Fin n}
    (slow : ObservedWithin inputs states i) (time : ℕ)
    (stepped : ((states time).lane i).stepped = true) :
    ∃ earlier closed, earlier < time ∧
      judgedWindow (states earlier) (inputs earlier) i = some closed ∧
      StepsDown closed ((states earlier).lane i) ((states (earlier + 1)).lane i) ∧
      ∀ between, earlier < between → between < time →
        judgedWindow (states between) (inputs between) i = none := by
  have low : ¬ ((states 0).lane i).stepped = true := by
    simp [(Control.new_some run.fresh).2.2 i]
  have quiet : ∀ time, ¬ (judgedWindow (states time) (inputs time) i).isSome →
      (((states (time + 1)).lane i).stepped = true ↔ ((states time).lane i).stepped = true) := by
    intro time unjudged
    rw [flag_quiet (run_bounded run slow time).coherent (Control.tick_lane (run.ticks time) i)
      (Option.not_isSome_iff_eq_none.mp unjudged)]
  rcases latest_event (fun time => ((states time).lane i).stepped = true)
    (fun time => (judgedWindow (states time) (inputs time) i).isSome) low quiet time stepped with
    ⟨earlier, before, happened, raised, gap⟩
  rcases Option.isSome_iff_exists.mp happened with ⟨closed, judged⟩
  have lowered := flag_raised (run_bounded run slow earlier)
    (Control.tick_lane (run.ticks earlier) i) judged (slow earlier closed judged) raised
  refine ⟨earlier, closed, before, judged, lowered, ?_⟩
  intro between lower upper
  exact Option.not_isSome_iff_eq_none.mp (gap between lower upper)

theorem run_settled (run : ControlRun ceiling inputs states) {i : Fin n}
    (slow : ObservedWithin inputs states i) {edge : Edge} {limiter : RateLimiter} {first : ℕ}
    (start : Settled edge limiter ((states first).lane i)) {last : ℕ} (order : first ≤ last)
    (standing : ∀ time, first ≤ time → time ≤ last → ((states time).lane i).edge.isSome) :
    Settled edge limiter ((states last).lane i) := by
  induction last, order using Nat.le_induction with
  | base => exact start
  | succ last order ih =>
      have held := ih fun time lower upper => standing time lower (Nat.le_succ_of_le upper)
      rcases settled_step (run_bounded run slow last) (Control.tick_lane (run.ticks last) i) held
        with ⟨drops, keeps⟩
      apply keeps
      intro due
      have present := standing (last + 1) (Nat.le_succ_of_le order) le_rfl
      simp [drops due] at present

/-- While an edge stands, a rate falls only in a converging, shaped window that
directly follows a real step; after a window that ended in any other way, edge
and rate stay as they are until the edge is dropped, which the first relax past
its time to live does. -/
theorem rate_never_ratchets (run : ControlRun ceiling inputs states) (i : Fin n)
    (slow : ObservedWithin inputs states i) :
    (∀ time, ((states time).lane i).edge.isSome →
      ((states (time + 1)).limiters i).rate < ((states time).limiters i).rate →
      ∃ closed, judgedWindow (states time) (inputs time) i = some closed ∧
        closed.verdict = .congested true ∧
        retreat * ((states time).limiters i).rate ≤ closed.observedQps ∧
        ∃ earlier previous, earlier < time ∧
          judgedWindow (states earlier) (inputs earlier) i = some previous ∧
          StepsDown previous ((states earlier).lane i) ((states (earlier + 1)).lane i) ∧
          ∀ between, earlier < between → between < time →
            judgedWindow (states between) (inputs between) i = none) ∧
    (∀ first closed, judgedWindow (states first) (inputs first) i = some closed →
      ¬ StepsDown closed ((states first).lane i) ((states (first + 1)).lane i) →
      ∀ edge, ((states (first + 1)).lane i).edge = some edge →
      ∀ last, first + 1 ≤ last →
      (∀ time, first + 1 ≤ time → time ≤ last → ((states time).lane i).edge.isSome) →
        ((states last).lane i).edge = some edge ∧
        (states last).limiters i = (states (first + 1)).limiters i ∧
        ((states last).limiters i).rate ≤ ((states (last + 1)).limiters i).rate ∧
        (((states (last + 1)).lane i).edge = none ↔
          Relaxed (states last) (inputs last) i ∧
            edge.seenAt + edgeTtlNs ≤ (inputs last).now)) := by
  constructor
  · intro time standing falls
    rcases fall_needs_step (run_bounded run slow time) (Control.tick_lane (run.ticks time) i)
      standing falls with ⟨closed, judged, verdict, stepped, hit⟩
    exact ⟨closed, judged, verdict, hit, flag_traced run slow time stepped⟩
  · intro first closed judged ended edge standing last order present
    -- a window that did not step leaves the flag down, and only the flag arms another step
    have unstepped : ((states (first + 1)).lane i).stepped = false := by
      apply Bool.eq_false_of_not_eq_true
      intro stepped
      exact ended (flag_raised (run_bounded run slow first) (Control.tick_lane (run.ticks first) i)
        judged (slow first closed judged) stepped)
    have settled : Settled edge ((states (first + 1)).limiters i) ((states last).lane i) :=
      run_settled run slow ⟨unstepped, standing, rfl⟩ order present
    rcases settled_step (run_bounded run slow last) (Control.tick_lane (run.ticks last) i) settled
      with ⟨drops, keeps⟩
    refine ⟨settled.standing, settled.pacing, ?_, ?_⟩
    · apply le_of_not_gt
      intro falls
      rcases fall_needs_step (run_bounded run slow last) (Control.tick_lane (run.ticks last) i)
        (present last order le_rfl) falls with ⟨_, _, _, stepped, _⟩
      rw [settled.unstepped] at stepped
      cases stepped
    · constructor
      · intro dropped
        by_contra early
        have kept := (keeps early).standing
        rw [dropped] at kept
        cases kept
      · exact drops

/-- Half of the first two hundred queries are lost, fewer of the next, which come at the rate
this led to, and none of the last; then nothing is sent. -/
def easingInputs (time : ℕ) : TickInput 1 where
  elapsedNs := 10 ^ 10
  now := (time + 1) * 10 ^ 10
  resolvers _ :=
    let (attempted, lost) := match time with
      | 0 => (200, 100)
      | 1 => (370, 140)
      | _ => (520, 140)
    { resolver := .v4 ⟨127, 0, 0, 1⟩ 53
      requestTimeoutNs := 10 ^ 9
      purgatoryThreshold := 0
      purgatorySentenceNs := 0
      inflight := 1
      limiter := ⟨1⟩
      attempted := attempted
      timeout := lost
      answered := attempted - lost }
  outcomes := {}
  waiting := 0

theorem easing_attempts (time : ℕ) (i : Fin 1) :
    ((easingInputs time).resolvers i).attempted ≤
        ((easingInputs (time + 1)).resolvers i).attempted ∧
      ((easingInputs time).resolvers i).attempted ≤ 520 := by
  rcases time with _ | _ | later <;> simp [easingInputs]

/-- What the open window holds has been counted before. -/
theorem easing_window {states : ℕ → Control 1} (run : ControlRun 1000 easingInputs states)
    (i : Fin 1) (time : ℕ) :
    ((states time).lane i).window.attempted ≤ ((states time).lane i).perResolver.attempted ∧
      ((states time).lane i).perResolver.attempted ≤
        ((easingInputs time).resolvers i).attempted := by
  induction time with
  | zero => simp [(Control.new_some run.fresh).2.2 i]
  | succ time ih =>
      have coherent := (control_run_sound run time).2 i
      rcases tick_window coherent (Control.tick_lane (run.ticks time) i) with ⟨snapshot, window⟩
      rw [snapshot]
      refine ⟨?_, (easing_attempts time i).1⟩
      rcases window with added | reset
      · rw [added]
        simp only [Lane.accumulate, observe]
        omega
      · rw [reset]
        exact Nat.zero_le _

theorem easing_within {states : ℕ → Control 1} (run : ControlRun 1000 easingInputs states)
    (i : Fin 1) : ObservedWithin easingInputs states i := by
  intro time closed judged
  rw [judgedWindow, Lane.judged] at judged
  split at judged
  · cases judged
  · rename_i full
    split at judged
    · cases judged
    · cases judged
      have few := easing_window run i time
      have most := (easing_attempts time i).2
      -- a window that is judged has lasted for a timeout, which is a second
      have long : 1 ≤ (((states time).lane i).accumulate (observe ((easingInputs time).resolvers i))
          (easingInputs time).seconds).windowSeconds := by
        have second : asSecs ((easingInputs time).resolvers i).requestTimeoutNs = 1 := by
          norm_num [easingInputs, asSecs]
        simp only [Lane.gathering, second, Bool.or_eq_true, decide_eq_true_eq, not_or, not_lt] at full
        exact full.1
      have count : (((states time).lane i).accumulate
          (observe ((easingInputs time).resolvers i))
          (easingInputs time).seconds).window.attempted ≤ 520 := by
        simp only [Lane.accumulate, observe]
        omega
      rw [Lane.observedQps, div_le_iff₀ (lt_max_of_lt_right (by norm_num [minSeconds]))]
      calc ((((states time).lane i).accumulate (observe ((easingInputs time).resolvers i))
            (easingInputs time).seconds).window.attempted : ℚ) ≤ maxObservedQps * 1 := by
            rw [mul_one, maxObservedQps]
            exact_mod_cast count.trans (by norm_num)
        _ ≤ _ := mul_le_mul_of_nonneg_left (long.trans (le_max_left _ _))
            (by norm_num [maxObservedQps])

/-- The second window lowers the rate while the first one's edge stands; the third ends
without a step, and the edge it leaves stays until it is dropped. -/
theorem rate_never_ratchets_easing :
    ∃ states, ControlRun 1000 easingInputs states ∧
      ((states 1).lane 0).edge.isSome = true ∧
      ((states 2).limiters 0).rate < ((states 1).limiters 0).rate ∧
      (∃ closed, judgedWindow (states 1) (easingInputs 1) 0 = some closed ∧
        closed.verdict = .congested true ∧
        retreat * ((states 1).limiters 0).rate ≤ closed.observedQps) ∧
      (∃ edge, ((states 3).lane 0).edge = some edge ∧ ((states 4).lane 0).edge = some edge ∧
        (states 4).limiters 0 = (states 3).limiters 0) ∧
      ((states 5).lane 0).edge = none ∧ Relaxed (states 4) (easingInputs 4) 0 := by
  rcases control_run_exists (by norm_num : (0 : ℚ) < 1000) easingInputs with ⟨states, run⟩
  have computed : (List.range 6).map (fun time => (controlStates 1000 easingInputs time).map fun
      control => ((control.lane 0).edge.isSome, (control.limiters 0).rate, (control.lane 0).stepped,
        (judgedWindow control (easingInputs time) 0).isSome)) =
      [some (false, 1000000000, false, true), some (true, 1000000000 / 58823529, true, true),
        some (true, 125000000 / 8650519, true, true),
        some (true, 125000000 / 8650519, false, false),
        some (true, 125000000 / 8650519, false, false), some (false, 1000000000, false, false)] := by
    decide +kernel
  simp only [List.range, List.range.loop, List.map_cons, List.map_nil, control_run_states run,
    Option.map_some, List.cons.injEq, Option.some.injEq, Prod.mk.injEq] at computed
  rcases computed with ⟨_, ⟨standing, before, _⟩, ⟨_, slower, _, judged⟩, ⟨third, _, unstepped, _⟩,
    ⟨fourth, _⟩, ⟨gone, _⟩, _⟩
  rcases rate_never_ratchets run 0 (easing_within run 0) with ⟨lowered, kept⟩
  have falls : ((states 2).limiters 0).rate < ((states 1).limiters 0).rate := by
    rw [before, slower]
    norm_num
  rcases lowered 1 standing falls with ⟨closed, opened, verdict, shaped, _⟩
  rcases Option.isSome_iff_exists.mp judged with ⟨last, ends⟩
  rcases Option.isSome_iff_exists.mp third with ⟨edge, left⟩
  have present : ∀ time, 3 ≤ time → time ≤ 4 → ((states time).lane 0).edge.isSome = true := by
    intro time lower upper
    rcases (by omega : time = 3 ∨ time = 4) with rfl | rfl
    · exact third
    · exact fourth
  have quiet : ¬ StepsDown last ((states 2).lane 0) ((states 3).lane 0) := by
    rintro ⟨_, stepped, _⟩
    rw [unstepped] at stepped
    cases stepped
  rcases kept 2 last ends quiet edge left 4 (by norm_num) present with ⟨stays, pacing, _, drops⟩
  have dropped : ((states 5).lane 0).edge = none := by
    rw [← Option.isNone_iff_eq_none, ← Option.isSome_eq_false_iff]
    exact gone
  exact ⟨states, run, standing, falls, ⟨closed, opened, verdict, shaped⟩,
    ⟨edge, left, stays, pacing⟩, dropped, (drops.mp dropped).1⟩

end Runs

end BlastDns.NoRatchet
