import BlastDns.Config
import BlastDns.Crew
import BlastDns.Runs

/-!
Purgatory under concurrency. `record_error` counts its failure, bumps the
consecutive count, and if that reached the threshold benches the resolver and
clears the count, each in an atomic step of its own; `record_response` takes one
off the count in between. Here every call is a process and any of them may move
next. A sentence is paid for by the failures since the count was last cleared,
so the count must not reach the threshold again before it is.
-/

namespace BlastDns.Purgatory

open Config Crew Health NetText Runs

/-- A call of `record_error` or `record_response`, by the atomic step it takes next. -/
inductive Call where
  -- count the timeout or error
  | erring (isTimeout : Bool)
  -- add one to the consecutive count
  | counted
  -- the threshold is reached: read the clock
  | reached
  -- store the end of the sentence
  | benching (untilNs : ℕ)
  -- count the sentence
  | entering
  -- clear the consecutive count
  | clearing
  -- count the answer or the empty response
  | responding (rttUs : ℕ) (hadAnswers : Bool)
  -- take one off the consecutive count
  | decaying (rttUs : ℕ)
  -- `record_rtt`, which the purgatory does not read
  | timing (rttUs : ℕ)
  | done
  deriving DecidableEq

structure Shared where
  health : ResolverHealth
  nowNs : ℕ

/-- Neither of the early returns is taken by a failure that found this count. -/
def sentenced (threshold sentenceNs consecutive : ℕ) : Bool :=
  !(threshold = 0 || consecutive < threshold) && !(sentenceNs = 0)

def callStep (shared : Shared) (call : Call) (_ : Unit) : Option (Shared × Call) :=
  let health := shared.health
  match call with
  | .erring true =>
      some ({ shared with health := { health with timeout := health.timeout + 1 } }, .counted)
  | .erring false =>
      some ({ shared with health := { health with error := health.error + 1 } }, .counted)
  | .counted =>
      let consecutive := health.consecutiveErrors + 1
      some ({ shared with health := { health with consecutiveErrors := consecutive } },
        if sentenced health.purgatoryThreshold health.purgatorySentenceNs consecutive then .reached
        else .done)
  | .reached =>
      -- `as_nanos() as u64` keeps the low 64 bits, and so does the unchecked sum
      some (shared, .benching ((shared.nowNs + health.purgatorySentenceNs % 2 ^ 64) % 2 ^ 64))
  | .benching untilNs =>
      some ({ shared with health := { health with benchedUntilNs := untilNs } }, .entering)
  | .entering =>
      some ({ shared with health :=
        { health with purgatoryEntries := health.purgatoryEntries + 1 } }, .clearing)
  | .clearing =>
      some ({ shared with health := { health with consecutiveErrors := 0 } }, .done)
  | .responding rttUs hadAnswers =>
      some ({ shared with health :=
        if hadAnswers then { health with answered := health.answered + 1 }
        else { health with empty := health.empty + 1 } }, .decaying rttUs)
  | .decaying rttUs => some ({ shared with health := health.decayErrors }, .timing rttUs)
  | .timing rttUs => some ({ shared with health := health.recordRtt rttUs shared.nowNs }, .done)
  | .done => none

section Alone

/-- Uninterrupted, the steps of a call are `record_error`. -/
theorem record_error_alone (shared : Shared) (isTimeout : Bool) :
    alone callStep 6 (shared, .erring isTimeout) =
      ({ shared with health := shared.health.recordError isTimeout shared.nowNs }, .done) := by
  cases hit : sentenced shared.health.purgatoryThreshold shared.health.purgatorySentenceNs
      (shared.health.consecutiveErrors + 1) with
  | false =>
      have early : (shared.health.purgatoryThreshold = 0 ∨ shared.health.consecutiveErrors + 1 <
          shared.health.purgatoryThreshold) ∨ shared.health.purgatorySentenceNs = 0 := by
        simp only [sentenced, Bool.and_eq_false_iff, Bool.not_eq_false', Bool.or_eq_true,
          decide_eq_true_eq] at hit
        exact hit
      cases isTimeout <;> simp [alone, callStep, ResolverHealth.recordError, hit] <;> omega
  | true =>
      have late : ¬ (shared.health.purgatoryThreshold = 0 ∨ shared.health.consecutiveErrors + 1 <
          shared.health.purgatoryThreshold) ∧ ¬ shared.health.purgatorySentenceNs = 0 := by
        simpa [sentenced] using hit
      cases isTimeout <;> simp [alone, callStep, ResolverHealth.recordError, hit, late]

theorem record_response_alone (shared : Shared) (rttUs : ℕ) (hadAnswers : Bool) :
    alone callStep 3 (shared, .responding rttUs hadAnswers) =
      ({ shared with health :=
        shared.health.recordResponse rttUs shared.nowNs hadAnswers }, .done) := by
  cases hadAnswers <;> rfl

end Alone

section Interleavings

inductive Event where
  | error (isTimeout : Bool)
  | response (rttUs : ℕ) (hadAnswers : Bool)
  | move (index : ℕ)
  | elapse (ns : ℕ)

def step (crew : State Shared Call) : Event → Option (State Shared Call)
  | .error isTimeout => some (hire crew [.erring isTimeout])
  | .response rttUs hadAnswers => some (hire crew [.responding rttUs hadAnswers])
  | .move index => act callStep crew index ()
  | .elapse ns => some { crew with shared := { crew.shared with nowNs := crew.shared.nowNs + ns } }

def newResolver (resolver : SocketAddr) (config : BlastDNSConfig) : State Shared Call where
  shared := { health := newHealth resolver config, nowNs := 0 }
  procs := []

def isCounted : Call → Bool
  | .counted => true
  | _ => false

def isSentencing : Call → Bool
  | .reached | .benching _ | .entering => true
  | _ => false

def isClearing : Call → Bool
  | .clearing => true
  | _ => false

def pending (crew : State Shared Call) : ℕ :=
  headcount isSentencing crew + headcount isClearing crew

/-- The step does not bring the count to the threshold while a call that did so
has yet to clear it. With a threshold of one that costs nothing. -/
def Undisturbed (crew : State Shared Call) : Event → Prop
  | .move index => crew.procs[index]? = some .counted →
      crew.shared.health.purgatoryThreshold = 1 ∨
      crew.shared.health.consecutiveErrors + 1 < crew.shared.health.purgatoryThreshold ∨
      pending crew = 0
  | _ => True

instance (crew : State Shared Call) : (event : Event) → Decidable (Undisturbed crew event)
  | .move index => inferInstanceAs (Decidable (crew.procs[index]? = some .counted →
      crew.shared.health.purgatoryThreshold = 1 ∨
      crew.shared.health.consecutiveErrors + 1 < crew.shared.health.purgatoryThreshold ∨
      pending crew = 0))
  | .error _ | .response _ _ | .elapse _ => isTrue trivial

/-- Each sentence, counted or about to be, is paid for by a threshold of failures;
while no call is pending, so is the standing count by as many as it says. -/
def Accounted (threshold entries sentencing clearing consecutive counted failures : ℕ) : Prop :=
  (threshold = 1 ∨ sentencing + clearing ≤ 1) ∧
  threshold * entries + threshold * sentencing + counted ≤ failures ∧
  (sentencing + clearing = 0 → threshold * entries + consecutive + counted ≤ failures)

section Account

variable {threshold entries sentencing clearing consecutive counted failures : ℕ}

theorem accounted_failure
    (account : Accounted threshold entries sentencing clearing consecutive counted failures) :
    Accounted threshold entries sentencing clearing consecutive (counted + 1) (failures + 1) := by
  rcases account with ⟨single, paid, idle⟩
  exact ⟨single, by omega, by omega⟩

theorem accounted_bump
    (account : Accounted threshold entries sentencing clearing consecutive (counted + 1) failures) :
    Accounted threshold entries sentencing clearing (consecutive + 1) counted failures := by
  rcases account with ⟨single, paid, idle⟩
  exact ⟨single, by omega, by omega⟩

theorem accounted_reach (reached : threshold ≤ consecutive + 1)
    (undisturbed : threshold = 1 ∨ sentencing + clearing = 0)
    (account : Accounted threshold entries sentencing clearing consecutive (counted + 1) failures) :
    Accounted threshold entries (sentencing + 1) clearing (consecutive + 1) counted failures := by
  rcases account with ⟨_, paid, idle⟩
  refine ⟨by omega, ?_, by omega⟩
  rw [Nat.mul_add_one]
  rcases undisturbed with rfl | quiet
  · omega
  · have spent := idle quiet
    have none : sentencing = 0 := by omega
    subst none
    omega

theorem accounted_enter
    (account : Accounted threshold entries (sentencing + 1) clearing consecutive counted failures) :
    Accounted threshold (entries + 1) sentencing (clearing + 1) consecutive counted failures := by
  rcases account with ⟨single, paid, _⟩
  rw [Nat.mul_add_one] at paid
  refine ⟨by omega, ?_, by omega⟩
  rw [Nat.mul_add_one]
  omega

theorem accounted_clear
    (account : Accounted threshold entries sentencing (clearing + 1) consecutive counted failures) :
    Accounted threshold entries sentencing clearing 0 counted failures := by
  rcases account with ⟨single, paid, _⟩
  exact ⟨by omega, paid, by omega⟩

theorem accounted_less {fewer : ℕ} (less : fewer ≤ consecutive)
    (account : Accounted threshold entries sentencing clearing consecutive counted failures) :
    Accounted threshold entries sentencing clearing fewer counted failures := by
  rcases account with ⟨single, paid, idle⟩
  exact ⟨single, paid, by omega⟩

end Account

def Earned (crew : State Shared Call) : Prop :=
  Accounted crew.shared.health.purgatoryThreshold crew.shared.health.purgatoryEntries
    (headcount isSentencing crew) (headcount isClearing crew)
    crew.shared.health.consecutiveErrors (headcount isCounted crew)
    (crew.shared.health.timeout + crew.shared.health.error)

theorem record_rtt_account (health : ResolverHealth) (rttUs nowNs : ℕ) :
    let after := health.recordRtt rttUs nowNs
    after.purgatoryThreshold = health.purgatoryThreshold ∧
      after.purgatoryEntries = health.purgatoryEntries ∧
      after.consecutiveErrors = health.consecutiveErrors ∧
      after.timeout + after.error = health.timeout + health.error := by
  unfold ResolverHealth.recordRtt
  simp only
  split
  · exact ⟨rfl, rfl, rfl, rfl⟩
  · split <;> exact ⟨rfl, rfl, rfl, rfl⟩

/-- The step lemma, one case for each atomic step of a call. -/
theorem move_earned {crew after : State Shared Call} {index : ℕ} (earned : Earned crew)
    (undisturbed : Undisturbed crew (.move index))
    (moved : act callStep crew index () = some after) : Earned after := by
  rcases act_headcount moved with ⟨call, next, found, stepped, counts⟩
  have counted := counts isCounted
  have sentencing := counts isSentencing
  have clearing := counts isClearing
  rcases after with ⟨shared, calls⟩
  rw [Earned] at earned ⊢
  cases call with
  | erring isTimeout =>
      -- the failure is on the books before it is in the count
      cases isTimeout <;> cases stepped <;>
        simp [isCounted, isSentencing, isClearing] at counted sentencing clearing <;>
        rw [counted, sentencing, clearing]
      · exact accounted_failure earned
      · rw [Nat.add_right_comm]
        exact accounted_failure earned
  | counted =>
      cases hit : sentenced crew.shared.health.purgatoryThreshold
          crew.shared.health.purgatorySentenceNs (crew.shared.health.consecutiveErrors + 1) with
      | false =>
          simp only [callStep, hit] at stepped
          cases stepped
          simp [isCounted, isSentencing, isClearing] at counted sentencing clearing
          rw [sentencing, clearing]
          rw [← counted] at earned
          exact accounted_bump earned
      | true =>
          have reached : crew.shared.health.purgatoryThreshold ≤
              crew.shared.health.consecutiveErrors + 1 := by
            simp [sentenced] at hit
            omega
          simp only [callStep, hit] at stepped
          cases stepped
          simp [isCounted, isSentencing, isClearing] at counted sentencing clearing
          rw [sentencing, clearing]
          rw [← counted] at earned
          have quiet : crew.shared.health.purgatoryThreshold = 1 ∨
              headcount isSentencing crew + headcount isClearing crew = 0 := by
            have alone := undisturbed found
            rw [pending] at alone
            omega
          exact accounted_reach reached quiet earned
  | reached | benching untilNs =>
      cases stepped
      simp [isCounted, isSentencing, isClearing] at counted sentencing clearing
      rw [counted, sentencing, clearing]
      exact earned
  | entering =>
      cases stepped
      simp [isCounted, isSentencing, isClearing] at counted sentencing clearing
      rw [counted, clearing]
      rw [← sentencing] at earned
      exact accounted_enter earned
  | clearing =>
      cases stepped
      simp [isCounted, isSentencing, isClearing] at counted sentencing clearing
      rw [counted, sentencing]
      rw [← clearing] at earned
      exact accounted_clear earned
  | responding rttUs hadAnswers =>
      cases stepped
      simp [isCounted, isSentencing, isClearing] at counted sentencing clearing
      rw [counted, sentencing, clearing]
      cases hadAnswers <;> exact earned
  | decaying rttUs =>
      cases stepped
      simp [isCounted, isSentencing, isClearing] at counted sentencing clearing
      rw [counted, sentencing, clearing]
      exact accounted_less (Nat.sub_le _ _) earned
  | timing rttUs =>
      cases stepped
      simp [isCounted, isSentencing, isClearing] at counted sentencing clearing
      rcases record_rtt_account crew.shared.health rttUs crew.shared.nowNs with
        ⟨threshold, entries, consecutive, failures⟩
      rw [counted, sentencing, clearing, threshold, entries, consecutive, failures]
      exact earned
  | done => cases stepped

theorem step_earned {crew after : State Shared Call} {event : Event} (earned : Earned crew)
    (undisturbed : Undisturbed crew event) (stepped : step crew event = some after) :
    Earned after := by
  cases event with
  | error isTimeout =>
      cases stepped
      simpa [Earned, headcount, hire, isCounted, isSentencing, isClearing] using earned
  | response rttUs hadAnswers =>
      cases stepped
      simpa [Earned, headcount, hire, isCounted, isSentencing, isClearing] using earned
  | move index => exact move_earned earned undisturbed stepped
  | elapse ns =>
      cases stepped
      exact earned

/-- As long as no count reaches the threshold again before it is cleared, every
sentence has cost a full threshold of failures. -/
theorem sentence_costs_threshold (resolver : SocketAddr) (config : BlastDNSConfig)
    {crew : State Shared Call}
    (reached : Relation.ReflTransGen
      (fun before after => ∃ event, Undisturbed before event ∧ step before event = some after)
      (newResolver resolver config) crew) :
    crew.shared.health.purgatoryThreshold * crew.shared.health.purgatoryEntries ≤
      crew.shared.health.timeout + crew.shared.health.error := by
  have earned : Earned crew := by
    apply reachable_invariant Earned _ reached
    · simp [Earned, Accounted, newResolver, newHealth, headcount]
    · rintro before after held ⟨event, undisturbed, stepped⟩
      exact step_earned held undisturbed stepped
  have paid := earned.2.1
  omega

def twoStrikes : BlastDNSConfig := { purgatoryThreshold := 2, purgatorySentenceNs := 1000 }

theorem sentence_costs_threshold_two :
    ∃ crew, Relation.ReflTransGen
        (fun before after => ∃ event, Undisturbed before event ∧ step before event = some after)
        (newResolver (.v4 ⟨9, 9, 9, 9⟩ 53) twoStrikes) crew ∧
      crew.shared.health.purgatoryEntries = 1 ∧
      crew.shared.health.purgatoryThreshold * crew.shared.health.purgatoryEntries ≤
        crew.shared.health.timeout + crew.shared.health.error := by
  have replayed : (List.foldlM (fun crew event =>
        if Undisturbed crew event then step crew event else none)
      (newResolver (.v4 ⟨9, 9, 9, 9⟩ 53) twoStrikes)
      [.error true, .move 0, .move 0, .error true, .move 1, .move 1, .move 1, .move 1, .move 1,
        .move 1]).map
      (fun crew => crew.shared.health.purgatoryEntries) = some 1 := by decide
  rcases Option.map_eq_some_iff.mp replayed with ⟨crew, ends, entries⟩
  have reached := admitted_replay_reaches ends
  exact ⟨crew, reached, entries, sentence_costs_threshold _ _ reached⟩

/-- Three failures in flight: the second and the third both find the threshold
reached, and two sentences of two are bought with three failures. -/
theorem burst_buys_two_sentences :
    ∃ crew, Relation.ReflTransGen
        (fun before after => ∃ event, step before event = some after)
        (newResolver (.v4 ⟨9, 9, 9, 9⟩ 53) twoStrikes) crew ∧
      ¬ crew.shared.health.purgatoryThreshold * crew.shared.health.purgatoryEntries ≤
        crew.shared.health.timeout + crew.shared.health.error := by
  have replayed : (List.foldlM step (newResolver (.v4 ⟨9, 9, 9, 9⟩ 53) twoStrikes)
      [.error true, .error true, .error true, .move 0, .move 1, .move 2, .move 0, .move 1, .move 2,
        .move 1, .move 1, .move 1, .move 2, .move 2, .move 2]).map
      (fun crew => decide (crew.shared.health.purgatoryThreshold *
        crew.shared.health.purgatoryEntries ≤
          crew.shared.health.timeout + crew.shared.health.error)) = some false := by
    decide
  rcases Option.map_eq_some_iff.mp replayed with ⟨crew, ends, broken⟩
  exact ⟨crew, replay_reaches ends, of_decide_eq_false broken⟩

end Interleavings

end BlastDns.Purgatory
