import BlastDns.PacerBank

/-!
What refills do for the callers that wait. A refill without a rate leaves nobody
behind in the queue, however the callers, their cancellations and the changes of
the rate fell before it. A refill at a rate owes the queue the time since the
last one, and pays it as long as that is no more than the burst.
-/

namespace BlastDns.PacerService

open Limiter Pacer Pacing PacerBank Runs

section Release

/-- Every caller that is counted stands somewhere, and tokens lie free only
while the queue is empty. -/
structure Tallied (pacing : Pacing) : Prop where
  counted : pacing.pacer.waiting = pacing.arriving + pacing.queued + pacing.assigned
  served : 0 < pacing.queued → pacing.pacer.tokens = 0
  held : pacing.pacer.tokens ≤ maxPermits

theorem add_permits_tallied {pacing after : Pacing} {permits : ℕ} (tallied : Tallied pacing)
    (added : pacing.addPermits permits = some after) : Tallied after := by
  have held : after.pacer.tokens ≤ maxPermits := by
    rw [addPermits] at added
    split at added
    · cases added
    · rename_i fits
      cases added
      exact not_lt.mp fits
  rcases tallied with ⟨counted, served, _⟩
  have same := add_permits_some added
  constructor
  · rw [same]
    dsimp only
    omega
  · rw [same]
    dsimp only
    omega
  · exact held

theorem caller_tallied {pacing after : Pacing} {caller : Caller} (tallied : Tallied pacing)
    (stepped : pacing.callerStep caller = some after) : Tallied after := by
  have ⟨counted, served, held⟩ := tallied
  cases caller with
  | call =>
      rw [callerStep] at stepped
      split at stepped <;> cases stepped <;> exact ⟨counted, served, held⟩
  | count =>
      rw [callerStep] at stepped
      split at stepped <;> cases stepped
      exact ⟨by dsimp only; omega, served, held⟩
  | arrive =>
      rw [callerStep] at stepped
      split at stepped
      · cases stepped
      · split at stepped <;> cases stepped
        · exact ⟨by dsimp only; omega, fun _ => by assumption, held⟩
        · exact ⟨by dsimp only; omega, by dsimp only; omega, by dsimp only; omega⟩
  | resume =>
      rw [callerStep] at stepped
      split at stepped <;> cases stepped
      exact ⟨by dsimp only [uncount]; omega, served, held⟩
  | cancelQueued =>
      rw [callerStep] at stepped
      split at stepped <;> cases stepped
      exact ⟨by dsimp only [uncount]; omega, by dsimp only [uncount]; omega, held⟩
  | cancelAssigned =>
      rw [callerStep] at stepped
      split at stepped
      · cases stepped
      · -- it leaves the count before its permit goes to the next in the queue
        refine add_permits_tallied ?_ stepped
        exact ⟨by dsimp only [uncount]; omega, served, held⟩

theorem refill_tallied {pacing after : Pacing} {seconds : ℚ} (tallied : Tallied pacing)
    (refilled : pacing.refill seconds = some after) : Tallied after := by
  refine add_permits_tallied ?_ refilled
  exact ⟨tallied.counted, tallied.served, tallied.held⟩

theorem bank_step_tallied {bank after : Bank} {event : PacerBank.Event}
    (tallied : Tallied bank.pacing) (stepped : bankStep bank event = some after) :
    Tallied after.pacing := by
  cases event with
  | caller caller =>
      rcases Option.map_eq_some_iff.mp stepped with ⟨pacing, moved, rfl⟩
      exact caller_tallied tallied moved
  | refill seconds =>
      rcases Option.map_eq_some_iff.mp stepped with ⟨pacing, moved, rfl⟩
      exact refill_tallied tallied moved
  | setRate rate =>
      cases stepped
      exact ⟨tallied.counted, tallied.served, tallied.held⟩

def BankMoves (before after : Bank) : Prop := ∃ event, bankStep before event = some after

theorem reached_tallied {bank : Bank} (reached : Relation.ReflTransGen BankMoves {} bank) :
    Tallied bank.pacing := by
  apply reachable_invariant (fun bank => Tallied bank.pacing) _ reached
  · exact ⟨rfl, fun _ => rfl, Nat.zero_le _⟩
  · rintro before after tallied ⟨event, stepped⟩
    exact bank_step_tallied tallied stepped

theorem unlimited_grant {pacer : AttemptPacer} (unlimited : pacer.rate = none) (seconds : ℚ) :
    granted pacer seconds = pacer.waiting - pacer.tokens := by
  rw [granted, unlimited]

/-- Once the rate is cleared the next refill, which fails only at the limit of the
semaphore, leaves nobody queued and a free token for everyone on the way. -/
theorem cleared_pacer_releases {bank : Bank} (reached : Relation.ReflTransGen BankMoves {} bank)
    (unlimited : bank.pacing.pacer.rate = none) (seconds : ℚ) :
    (bank.pacing.pacer.waiting ≤ maxPermits →
      ∃ after, bankStep bank (.refill seconds) = some after) ∧
    ∀ after, bankStep bank (.refill seconds) = some after →
      after.pacing.queued = 0 ∧ after.pacing.arriving ≤ after.pacing.pacer.tokens ∧
      after.pacing.pacer.waiting - after.pacing.assigned ≤ after.pacing.pacer.tokens := by
  have ⟨counted, served, held⟩ := reached_tallied reached
  have amount := unlimited_grant unlimited seconds
  constructor
  · intro fits
    have room : ¬ maxPermits < bank.pacing.pacer.tokens +
        (bank.pacing.pacer.waiting - bank.pacing.pacer.tokens -
          min (bank.pacing.pacer.waiting - bank.pacing.pacer.tokens) bank.pacing.queued) := by
      omega
    have filled : ∃ pacing, bank.pacing.refill seconds = some pacing := by
      rw [refill, amount]
      exact ⟨_, if_neg room⟩
    rcases filled with ⟨pacing, refilled⟩
    exact ⟨{ bank with pacing := pacing }, by rw [bankStep, refilled]; rfl⟩
  · rintro after stepped
    rcases Option.map_eq_some_iff.mp stepped with ⟨pacing, refilled, rfl⟩
    -- those in the queue are counted, so the top-up reaches all of them
    rw [refill_some refilled, amount]
    dsimp only
    refine ⟨?_, ?_, ?_⟩ <;> omega

/-- One caller is queued, one is on its way and one has just been handed a token
when the rate is cleared; a fourth has read the old rate. -/
theorem cleared_pacer_releases_three :
    ∃ bank after, Relation.ReflTransGen BankMoves {} bank ∧
      bank.pacing.pacer.rate = none ∧ bank.pacing.pacer.waiting = 3 ∧ bank.pacing.queued = 1 ∧
      bankStep bank (.refill 1) = some after ∧ after.pacing.queued = 0 ∧
      after.pacing.pacer.waiting - after.pacing.assigned ≤ after.pacing.pacer.tokens := by
  have replayed : (List.foldlM bankStep {}
      [.setRate (some 100), .caller .call, .caller .call, .caller .call, .caller .call,
        .caller .count, .caller .count, .caller .arrive, .caller .arrive, .refill (1 / 100),
        .caller .count, .setRate none]).map (fun bank =>
          decide (bank.pacing.pacer.rate = none ∧ bank.pacing.pacer.waiting = 3 ∧
            bank.pacing.queued = 1)) = some true := by
    decide +kernel
  rcases Option.map_eq_some_iff.mp replayed with ⟨bank, ends, shown⟩
  have reached : Relation.ReflTransGen BankMoves {} bank := replay_reaches ends
  have ⟨unlimited, waiting, queued⟩ := of_decide_eq_true shown
  have released := cleared_pacer_releases reached unlimited 1
  rcases released.1 (by rw [waiting]; decide) with ⟨after, refilled⟩
  have ⟨empty, _, enough⟩ := released.2 after refilled
  exact ⟨bank, after, reached, unlimited, waiting, queued, refilled, empty, enough⟩

end Release

section Service

/-- Whole tokens owed once `seconds` have passed. -/
def owed (pacer : AttemptPacer) (rate seconds : ℚ) : ℕ := ⌊pacer.carry + rate * seconds⌋₊

/-- A refill finds more callers queued than it could add tokens. -/
def Crowded (rate : ℚ) (timed : Timed) : Pacer.Event → Prop
  | .refill => owed timed.pacing.pacer rate (timed.now - timed.previous) < timed.pacing.queued
  | .elapse _ | .caller _ => True

/-- A refill comes before it owes more than the bucket may hold. -/
def InTime (rate : ℚ) (timed : Timed) : Pacer.Event → Prop
  | .refill => owed timed.pacing.pacer rate (timed.now - timed.previous) ≤ burst rate
  | .elapse _ | .caller _ => True

instance (rate : ℚ) (timed : Timed) : (event : Pacer.Event) → Decidable (Crowded rate timed event)
  | .refill => inferInstanceAs (Decidable
      (owed timed.pacing.pacer rate (timed.now - timed.previous) < timed.pacing.queued))
  | .elapse _ | .caller _ => isTrue trivial

instance (rate : ℚ) (timed : Timed) : (event : Pacer.Event) → Decidable (InTime rate timed event)
  | .refill => inferInstanceAs (Decidable
      (owed timed.pacing.pacer rate (timed.now - timed.previous) ≤ burst rate))
  | .elapse _ | .caller _ => isTrue trivial

theorem granted_owed {pacer : AttemptPacer} {rate : ℚ} (paced : pacer.rate = some rate)
    (seconds : ℚ) : granted pacer seconds =
      min (min (owed pacer rate seconds) u64Max) (burst rate - pacer.tokens) := by
  have whole : ⌊((⌊pacer.carry + rate * seconds⌋ : ℤ) : ℚ)⌋₊ = owed pacer rate seconds := by
    rw [← Int.floor_toNat, Int.floor_intCast, Int.floor_toNat, owed]
  rw [granted, paced]
  dsimp only
  rw [asUsize, whole]

/-- All that is owed is handed out when the bucket is empty and would hold it. -/
theorem in_time_granted {pacer : AttemptPacer} {rate seconds : ℚ} (paced : pacer.rate = some rate)
    (empty : pacer.tokens = 0) (inTime : owed pacer rate seconds ≤ burst rate) :
    granted pacer seconds = owed pacer rate seconds := by
  have short : burst rate ≤ u64Max := min_le_right _ _
  rw [granted_owed paced, empty]
  omega

/-- Beyond what is owed to the callers in whole tokens, only the fraction is kept. -/
theorem owed_add_carried {pacer : AttemptPacer} {rate : ℚ} (paced : pacer.rate = some rate)
    (seconds : ℚ) :
    pacer.carry + rate * seconds ≤ owed pacer rate seconds + carried pacer seconds := by
  have floored : ((⌊pacer.carry + rate * seconds⌋ : ℤ) : ℚ) ≤ owed pacer rate seconds := by
    rw [owed, ← Int.floor_toNat]
    exact_mod_cast Int.self_le_toNat _
  rw [carried, paced]
  dsimp only
  linarith

theorem bank_step_fraction {bank after : Bank} {event : PacerBank.Event}
    (fraction : 0 ≤ bank.pacing.pacer.carry ∧ bank.pacing.pacer.carry < 1)
    (stepped : bankStep bank event = some after) :
    0 ≤ after.pacing.pacer.carry ∧ after.pacing.pacer.carry < 1 := by
  cases event with
  | caller caller =>
      rcases Option.map_eq_some_iff.mp stepped with ⟨pacing, moved, rfl⟩
      rw [(caller_step_pacer moved).2]
      exact fraction
  | refill seconds =>
      rcases Option.map_eq_some_iff.mp stepped with ⟨pacing, refilled, rfl⟩
      rw [refill_some refilled]
      cases paced : bank.pacing.pacer.rate with
      | none =>
          rw [carried, paced]
          exact fraction
      | some rate => exact carried_fraction paced seconds
  | setRate rate =>
      cases stepped
      exact ⟨le_rfl, one_pos⟩

theorem reached_fraction {bank : Bank} (reached : Relation.ReflTransGen BankMoves {} bank) :
    0 ≤ bank.pacing.pacer.carry ∧ bank.pacing.pacer.carry < 1 := by
  apply reachable_invariant
    (fun bank : Bank => 0 ≤ bank.pacing.pacer.carry ∧ bank.pacing.pacer.carry < 1) _ reached
  · exact ⟨le_rfl, one_pos⟩
  · rintro before after fraction ⟨event, stepped⟩
    exact bank_step_fraction fraction stepped

/-- Along a crowded run in time: the tokens handed out and the fraction kept make up
the rate times the time since the refill at `first`. -/
structure KeepsUp (rate first : ℚ) (timed : Timed) : Prop where
  tallied : Tallied timed.pacing
  paced : timed.pacing.pacer.rate = some rate
  fraction : timed.pacing.pacer.carry < 1
  paid : rate * (timed.previous - first) ≤ timed.added + timed.pacing.pacer.carry

theorem refill_keeps_up {rate first : ℚ} {timed after : Timed} (keeps : KeepsUp rate first timed)
    (crowded : Crowded rate timed .refill) (inTime : InTime rate timed .refill)
    (stepped : timedStep timed .refill = some after) : KeepsUp rate first after := by
  rcases keeps with ⟨tallied, paced, _, paid⟩
  rcases Option.map_eq_some_iff.mp stepped with ⟨pacing, refilled, same⟩
  -- somebody is queued, so no token lies free
  have empty := tallied.served (Nat.zero_lt_of_lt crowded)
  have handed := in_time_granted paced empty inTime
  have enough := owed_add_carried paced (timed.now - timed.previous)
  have kept := refill_some refilled
  have carries : pacing.pacer.carry =
      carried timed.pacing.pacer (timed.now - timed.previous) := by rw [kept]
  subst same
  constructor
  · exact refill_tallied tallied refilled
  · rw [kept]
    exact paced
  · rw [carries]
    exact (carried_fraction paced _).2
  · dsimp only
    rw [carries, handed]
    push_cast
    calc rate * (timed.now - first)
        = rate * (timed.previous - first) + rate * (timed.now - timed.previous) := by ring
      _ ≤ timed.added + owed timed.pacing.pacer rate (timed.now - timed.previous) +
          carried timed.pacing.pacer (timed.now - timed.previous) := by linarith

theorem timed_step_keeps_up {rate first : ℚ} {timed after : Timed} {event : Pacer.Event}
    (keeps : KeepsUp rate first timed) (crowded : Crowded rate timed event)
    (inTime : InTime rate timed event) (stepped : timedStep timed event = some after) :
    KeepsUp rate first after := by
  cases event with
  | elapse seconds =>
      rw [timedStep] at stepped
      split at stepped <;> cases stepped
      exact ⟨keeps.tallied, keeps.paced, keeps.fraction, keeps.paid⟩
  | refill => exact refill_keeps_up keeps crowded inTime stepped
  | caller caller =>
      rcases Option.map_eq_some_iff.mp stepped with ⟨pacing, moved, same⟩
      rcases caller_step_pacer moved with ⟨rate, carry⟩
      subst same
      constructor
      · exact caller_tallied keeps.tallied moved
      · rw [rate]
        exact keeps.paced
      · rw [carry]
        exact keeps.fraction
      · rw [carry]
        exact keeps.paid

/-- A crowded refill gives everything it adds to the queue, so it cannot overfill
the semaphore. -/
theorem crowded_refill_succeeds {rate first : ℚ} {timed : Timed}
    (keeps : KeepsUp rate first timed) (crowded : Crowded rate timed .refill) :
    ∃ after, timedStep timed .refill = some after := by
  have held := keeps.tallied.held
  have few : granted timed.pacing.pacer (timed.now - timed.previous) < timed.pacing.queued := by
    rw [granted_owed keeps.paced]
    exact lt_of_le_of_lt (le_trans (min_le_left _ _) (min_le_left _ _)) crowded
  have room : ¬ maxPermits < timed.pacing.pacer.tokens +
      (granted timed.pacing.pacer (timed.now - timed.previous) -
        min (granted timed.pacing.pacer (timed.now - timed.previous)) timed.pacing.queued) := by
    omega
  have filled : ∃ pacing, timed.pacing.refill (timed.now - timed.previous) = some pacing :=
    ⟨_, if_neg room⟩
  rcases filled with ⟨pacing, refilled⟩
  exact ⟨_, by rw [timedStep, refilled]; rfl⟩

def CrowdedInTime (rate : ℚ) (before after : Timed) : Prop :=
  ∃ event, (Crowded rate before event ∧ InTime rate before event) ∧
    timedStep before event = some after

def queueOfFour : List PacerBank.Event :=
  [.setRate (some 100), .caller .call, .caller .call, .caller .call, .caller .call,
    .caller .count, .caller .count, .caller .count, .caller .count,
    .caller .arrive, .caller .arrive, .caller .arrive, .caller .arrive, .refill 0]

end Service

end BlastDns.PacerService
