import BlastDns.LaneTick

/-!
What the parallel vectors of one resolver keep in step. Several branches leave
entries stale on purpose (a held edge keeps its old undo pair, a cleared window
keeps the edge), and the limiter only stores whole nanoseconds, so the relation
between an edge and the pacing is stated on the stored interval. Under it
`relax` never climbs: the only thing it can do is expire the edge.
-/

namespace BlastDns.LaneCoherence

open Limiter Judge Brake LaneTick

/-- The interval a standing edge asks for; without one the resolver is not paced. -/
def CoherentInterval (edge : Option Edge) (intervalNs : ℕ) : Prop :=
  match edge with
  | none => intervalNs = 1
  | some edge => intervalNs = pacingInterval (target edge)

/-- An undo pair remembers a rate read back from a coherent interval. -/
def CoherentPair (pair : Option Edge × ℚ) : Prop :=
  ∃ limiter : RateLimiter, pair.2 = limiter.rate ∧ CoherentInterval pair.1 limiter.intervalNs

structure Coherent (lane : Lane) : Prop where
  paced : CoherentInterval lane.edge lane.limiter.intervalNs
  undoable : lane.stepped = true → lane.undo.isSome
  undo : ∀ pair, lane.undo = some pair → CoherentPair pair
  episode : lane.judge.best.isSome → lane.edge.isSome

theorem target_floor (edge : Edge) : 1 ≤ target edge := le_max_right _ _

theorem target_pos (edge : Edge) : 0 < target edge := lt_of_lt_of_le one_pos (target_floor edge)

theorem coherent_interval_range {edge : Option Edge} {intervalNs : ℕ}
    (coherent : CoherentInterval edge intervalNs) : 1 ≤ intervalNs ∧ intervalNs ≤ 10 ^ 9 := by
  cases edge with
  | none =>
      cases coherent
      norm_num
  | some edge =>
      cases coherent
      constructor
      · exact pacing_interval_pos _
      · exact pacing_interval_le_second (target_floor edge)

theorem coherent_rate {edge : Option Edge} {limiter : RateLimiter}
    (coherent : CoherentInterval edge limiter.intervalNs) :
    0 < limiter.rate ∧ pacingInterval limiter.rate = limiter.intervalNs := by
  rcases coherent_interval_range coherent with ⟨lower, upper⟩
  have fits : limiter.intervalNs ≤ u64Max := le_trans upper (by norm_num [u64Max])
  exact ⟨rate_pos lower, pacing_interval_rate lower fits⟩

theorem coherent_fresh : Coherent { limiter := ⟨1⟩ } where
  paced := rfl
  undoable := by simp
  undo := by simp
  episode := by simp

theorem coherent_window {lane : Lane} (coherent : Coherent lane)
    (perResolver window : Observation) (windowSeconds : ℚ) :
    Coherent { lane with
      perResolver := perResolver, window := window, windowSeconds := windowSeconds } :=
  ⟨coherent.paced, coherent.undoable, coherent.undo, coherent.episode⟩

theorem coherent_unstepped {lane : Lane} (coherent : Coherent lane) :
    Coherent { lane with stepped := false } :=
  ⟨coherent.paced, by simp, coherent.undo, coherent.episode⟩

def expire (lane : Lane) (now : ℕ) : Lane :=
  match lane.edge with
  | none => lane
  | some edge =>
      if edgeTtlNs ≤ now - edge.seenAt then
        { lane with edge := none, judge := lane.judge.endEpisode, limiter := ⟨1⟩ }
      else lane

def takeBack (lane : Lane) : Lane :=
  match lane.stepped, lane.undo with
  | true, some (edge, rate) =>
      { lane with stepped := false, undo := none, edge := edge, limiter := ⟨pacingInterval rate⟩ }
  | _, _ => { lane with stepped := false }

def stepDown (lane : Lane) (converging : Bool) (observedQps : ℚ) (now : ℕ) : Lane :=
  let edge := lane.nextEdge converging observedQps now
  let stepped : Bool := target edge < lane.limiter.rate * (1 + retreat) / 2
  { lane with
    stepped := stepped
    undo := if stepped then some (lane.edge, lane.limiter.rate) else lane.undo
    edge := some edge
    limiter := ⟨pacingInterval (target edge)⟩ }

theorem lane_set_rate {queriesPerSecond : ℚ} (lane : Lane) (positive : 0 < queriesPerSecond) :
    lane.setRate queriesPerSecond =
      some { lane with limiter := ⟨pacingInterval queriesPerSecond⟩ } := by
  rw [Lane.setRate, set_rate_pos _ positive, Option.map_some]

/-- The climb is idle: every rate between the stored one and the target rounds to
the interval already stored. -/
theorem relax_paced (lane : Lane) (now : ℕ)
    (paced : CoherentInterval lane.edge lane.limiter.intervalNs) :
    lane.relax now = some (expire lane now) := by
  cases standing : lane.edge with
  | none => simp [Lane.relax, expire, standing]
  | some edge =>
      by_cases stale : edgeTtlNs ≤ now - edge.seenAt
      · simp only [Lane.relax, expire, standing, if_pos stale]
        rw [lane_set_rate _ unlimited_pos, unlimited_interval]
      · simp only [Lane.relax, expire, standing, if_neg stale]
        -- the rate reads below its target only by the rounding of the interval
        by_cases slow : lane.limiter.rate < target edge
        · have stored : lane.limiter.intervalNs = pacingInterval (target edge) := by
            rw [standing] at paced
            exact paced
          have climbs : lane.limiter.rate ≤ min (lane.limiter.rate * growth) (target edge) := by
            have positive := (coherent_rate paced).1
            apply le_min _ slow.le
            norm_num [growth]
            linarith
          have idle : pacingInterval (min (lane.limiter.rate * growth) (target edge)) =
              lane.limiter.intervalNs := by
            rw [stored]
            apply Quantised.ticks_between nanos_pos u64_room _ (min_le_right _ _)
            rw [RateLimiter.rate, stored] at climbs
            rw [RateLimiter.rate, stored]
            exact climbs
          have positive := lt_of_lt_of_le (coherent_rate paced).1 climbs
          rw [if_pos slow, lane_set_rate _ positive, idle]
        · rw [if_neg slow]

theorem undo_retreat_paced (lane : Lane)
    (undo : ∀ pair, lane.undo = some pair → CoherentPair pair) :
    lane.undoRetreat = some (takeBack lane) := by
  cases stepped : lane.stepped with
  | false => simp [Lane.undoRetreat, takeBack, stepped]
  | true =>
      cases stored : lane.undo with
      | none => simp [Lane.undoRetreat, takeBack, stepped, stored]
      | some pair =>
          rcases undo pair stored with ⟨limiter, read, paced⟩
          have positive : 0 < pair.2 := by
            rw [read]
            exact (coherent_rate paced).1
          simp only [Lane.undoRetreat, takeBack, stepped, stored]
          rw [lane_set_rate _ positive]

theorem retreat_below_paced (lane : Lane) (converging : Bool) (observedQps : ℚ) (now : ℕ) :
    lane.retreatBelow converging observedQps now =
      some (stepDown lane converging observedQps now) :=
  lane_set_rate _ (target_pos _)

theorem step_down_undo (lane : Lane) (converging : Bool) (observedQps : ℚ) (now : ℕ) :
    (stepDown lane converging observedQps now).undo =
      if (stepDown lane converging observedQps now).stepped then
        some (lane.edge, lane.limiter.rate)
      else lane.undo := by
  rw [stepDown]

def afterVerdict (closed : Lane) : Lane :=
  { closed.resetWindow with judge := (closed.judge.judge closed.loss closed.delivered).2 }

/-- Everything a tick can do to a coherent lane: age the edge while no window is
judged, or close the window and clear, take back or step down. -/
theorem tick_cases {lane : Lane} (coherent : Coherent lane) (current : Observation)
    (timeout seconds : ℚ) (now : ℕ) :
    (lane.judged current timeout seconds = none ∧ ∃ window windowSeconds,
      (window = (lane.accumulate current seconds).window ∨ window = {}) ∧
      lane.tick current timeout seconds now = some (expire { lane with
        perResolver := current, window := window, windowSeconds := windowSeconds } now)) ∨
    ∃ closed, lane.judged current timeout seconds = some closed ∧
      closed = lane.accumulate current seconds ∧
      ((closed.verdict = .clear ∧ lane.tick current timeout seconds now =
          some (expire { afterVerdict closed with stepped := false } now)) ∨
        (closed.verdict = .baseline ∧
          lane.tick current timeout seconds now = some (takeBack (afterVerdict closed))) ∨
        ∃ converging, closed.verdict = .congested converging ∧
          lane.tick current timeout seconds now =
            some (stepDown (afterVerdict closed) converging closed.observedQps now)) := by
  by_cases short : (lane.accumulate current seconds).gathering timeout
  · left
    constructor
    · simp [Lane.judged, short]
    · have relaxed := relax_paced (lane.accumulate current seconds) now coherent.paced
      exact ⟨_, _, Or.inl rfl, by simp only [Lane.tick, if_pos short]; exact relaxed⟩
  · by_cases few : (lane.accumulate current seconds).window.attempted < minSamples
    · left
      constructor
      · simp [Lane.judged, short, few]
      · have relaxed := relax_paced (lane.accumulate current seconds).resetWindow now coherent.paced
        exact ⟨_, _, Or.inr rfl, by simp only [Lane.tick, if_neg short, if_pos few]; exact relaxed⟩
    · -- a window is judged, and from here on only its verdict matters
      right
      refine ⟨_, by simp [Lane.judged, short, few], rfl, ?_⟩
      simp only [Lane.tick, if_neg short, if_neg few]
      generalize settled : lane.accumulate current seconds = closed
      have paced : CoherentInterval closed.edge closed.limiter.intervalNs := by
        rw [← settled]
        exact coherent.paced
      have undo : ∀ pair, closed.undo = some pair → CoherentPair pair := by
        rw [← settled]
        exact coherent.undo
      cases verdict : closed.verdict with
      | clear =>
          left
          refine ⟨rfl, ?_⟩
          rw [Lane.verdict] at verdict
          simp only [Lane.judgeWindow, verdict]
          exact relax_paced { afterVerdict closed with stepped := false } now paced
      | baseline =>
          right
          left
          refine ⟨rfl, ?_⟩
          rw [Lane.verdict] at verdict
          simp only [Lane.judgeWindow, verdict]
          exact undo_retreat_paced (afterVerdict closed) undo
      | congested converging =>
          right
          right
          refine ⟨converging, rfl, ?_⟩
          rw [Lane.verdict] at verdict
          simp only [Lane.judgeWindow, verdict]
          exact retreat_below_paced (afterVerdict closed) converging closed.observedQps now

theorem ticked_cases {lane after : Lane} (coherent : Coherent lane) {current : Observation}
    {timeout seconds : ℚ} {now : ℕ}
    (ticked : lane.tick current timeout seconds now = some after) :
    (lane.judged current timeout seconds = none ∧ ∃ window windowSeconds,
      (window = (lane.accumulate current seconds).window ∨ window = {}) ∧
      after = expire { lane with
        perResolver := current, window := window, windowSeconds := windowSeconds } now) ∨
    ∃ closed, lane.judged current timeout seconds = some closed ∧
      closed = lane.accumulate current seconds ∧
      ((closed.verdict = .clear ∧
          after = expire { afterVerdict closed with stepped := false } now) ∨
        (closed.verdict = .baseline ∧ after = takeBack (afterVerdict closed)) ∨
        ∃ converging, closed.verdict = .congested converging ∧
          after = stepDown (afterVerdict closed) converging closed.observedQps now) := by
  have cases := tick_cases coherent current timeout seconds now
  simp only [ticked, Option.some.injEq] at cases
  exact cases

theorem expire_coherent {lane : Lane} (coherent : Coherent lane) (now : ℕ) :
    Coherent (expire lane now) := by
  rw [expire]
  split
  · exact coherent
  · split
    · exact ⟨rfl, coherent.undoable, coherent.undo, by simp [LossJudge.endEpisode]⟩
    · exact coherent

theorem take_back_coherent {lane : Lane} (coherent : Coherent lane)
    (ended : lane.judge.best = none) : Coherent (takeBack lane) := by
  rw [takeBack]
  split
  · rename_i edge rate stepped stored
    -- storing the remembered rate selects the interval it was read from
    rcases coherent.undo _ stored with ⟨limiter, read, paced⟩
    refine ⟨?_, by simp, by simp, by simp [ended]⟩
    change rate = limiter.rate at read
    change CoherentInterval edge (pacingInterval rate)
    rw [read, (coherent_rate paced).2]
    exact paced
  · exact coherent_unstepped coherent

theorem step_down_coherent (lane : Lane)
    (paced : CoherentInterval lane.edge lane.limiter.intervalNs)
    (undo : ∀ pair, lane.undo = some pair → CoherentPair pair) (converging : Bool)
    (observedQps : ℚ) (now : ℕ) : Coherent (stepDown lane converging observedQps now) := by
  refine ⟨rfl, ?_, ?_, fun _ => rfl⟩
  · intro stepped
    rw [step_down_undo, if_pos stepped]
    rfl
  · intro pair stored
    rw [step_down_undo] at stored
    split at stored
    · cases stored
      exact ⟨lane.limiter, rfl, paced⟩
    · exact undo pair stored

theorem uncongested_ends (judge : LossJudge) (loss delivered : ℚ)
    (quiet : (judge.judge loss delivered).1.isCongested = false) :
    (judge.judge loss delivered).2.best = none := by
  rcases judge_cases judge loss delivered with
    ⟨_, same⟩ | ⟨_, _, same⟩ | ⟨_, _, _, same⟩ | ⟨_, _, _, _, same⟩
  · rw [same]
  · rw [same]
  · simp [same, Verdict.isCongested] at quiet
  · simp [same, Verdict.isCongested] at quiet

theorem after_verdict_coherent {closed : Lane} (coherent : Coherent closed)
    (quiet : closed.verdict.isCongested = false) :
    Coherent (afterVerdict closed) ∧ (afterVerdict closed).judge.best = none := by
  have ended : (afterVerdict closed).judge.best = none := uncongested_ends _ _ _ quiet
  exact ⟨⟨coherent.paced, coherent.undoable, coherent.undo, by simp [ended]⟩, ended⟩

/-- No tick panics on a coherent lane, and every tick leaves it coherent. -/
theorem tick_coherent {lane : Lane} (coherent : Coherent lane) (current : Observation)
    (timeout seconds : ℚ) (now : ℕ) :
    ∃ after, lane.tick current timeout seconds now = some after ∧ Coherent after := by
  rcases tick_cases coherent current timeout seconds now with
    ⟨_, window, windowSeconds, _, quiet⟩ | ⟨closed, _, same, judged⟩
  · exact ⟨_, quiet, expire_coherent (coherent_window coherent _ _ _) now⟩
  · have kept : Coherent closed := by
      rw [same]
      exact coherent_window coherent _ _ _
    rcases judged with ⟨verdict, ticked⟩ | ⟨verdict, ticked⟩ | ⟨converging, verdict, ticked⟩
    · have ended := after_verdict_coherent kept (by rw [verdict]; rfl)
      exact ⟨_, ticked, expire_coherent (coherent_unstepped ended.1) now⟩
    · have ended := after_verdict_coherent kept (by rw [verdict]; rfl)
      exact ⟨_, ticked, take_back_coherent ended.1 ended.2⟩
    · exact ⟨_, ticked, step_down_coherent (afterVerdict closed) kept.paced kept.undo converging _ now⟩

end BlastDns.LaneCoherence
