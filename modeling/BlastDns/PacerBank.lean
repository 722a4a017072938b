import BlastDns.Pacer

/-!
What the pacer has in store when nobody waits. While no rate is set a refill
tops the tokens up to the callers counted as waiting. Those that were handed a
token and have not run since are still counted, so a refill that comes before
they do adds a second token for each of them, and that one stays.
-/

namespace BlastDns.PacerBank

open Limiter Pacer Pacing Runs

structure Bank where
  pacing : Pacing := {}
  top : ℚ := 0
  deriving DecidableEq

inductive Event where
  | caller (caller : Caller)
  | refill (seconds : ℚ)
  | setRate (rate : Option ℚ)

def bankStep (bank : Bank) : Event → Option Bank
  | .caller caller =>
      (bank.pacing.callerStep caller).map fun pacing => { bank with pacing := pacing }
  | .refill seconds =>
      (bank.pacing.refill seconds).map fun pacing => { bank with pacing := pacing }
  | .setRate rate =>
      some {
        pacing := { bank.pacing with pacer := bank.pacing.pacer.setRate rate }
        top := rate.elim bank.top (max bank.top) }

def Patient : Event → Bool
  | .caller .cancelQueued | .caller .cancelAssigned => false
  | _ => true

/-- A refill without a rate finds no more tokens handed out and not yet collected
than the bucket may hold. -/
def Collected (bank : Bank) : Event → Prop
  | .refill _ => bank.pacing.pacer.rate = none → bank.pacing.assigned ≤ burstTokens bank.top
  | _ => True

instance (bank : Bank) : (event : Event) → Decidable (Collected bank event)
  | .refill _ => inferInstanceAs (Decidable (bank.pacing.pacer.rate = none →
      bank.pacing.assigned ≤ burstTokens bank.top))
  | .caller _ | .setRate _ => isTrue trivial

/-- Free tokens in excess of the burst are meant for callers on their way. -/
structure Spent (bank : Bank) : Prop where
  counted : bank.pacing.pacer.waiting =
    bank.pacing.arriving + bank.pacing.queued + bank.pacing.assigned
  served : 0 < bank.pacing.queued → bank.pacing.pacer.tokens = 0
  bounded : bank.pacing.pacer.tokens ≤ burstTokens bank.top + bank.pacing.arriving
  below : ∀ rate, bank.pacing.pacer.rate = some rate → rate ≤ bank.top

theorem burst_tokens_mono {low high : ℚ} (order : low ≤ high) :
    burstTokens low ≤ burstTokens high := by
  apply max_le_max_right
  exact Nat.floor_le_floor (div_le_div_of_nonneg_right order (by norm_num))

theorem spent_fresh : Spent {} where
  counted := rfl
  served := fun _ => rfl
  bounded := Nat.zero_le _
  below := by simp

theorem caller_spent {bank : Bank} {pacing : Pacing} {caller : Caller} (spent : Spent bank)
    (patient : Patient (.caller caller) = true)
    (stepped : bank.pacing.callerStep caller = some pacing) :
    Spent { bank with pacing := pacing } := by
  have below := spent.below
  rw [← (caller_step_pacer stepped).1] at below
  rcases spent with ⟨counted, served, bounded, _⟩
  cases caller with
  | call =>
      rw [callerStep] at stepped
      split at stepped <;> cases stepped <;> exact ⟨counted, served, bounded, below⟩
  | count =>
      rw [callerStep] at stepped
      split at stepped <;> cases stepped
      exact ⟨by dsimp only; omega, served, by dsimp only; omega, below⟩
  | arrive =>
      rw [callerStep] at stepped
      split at stepped
      · cases stepped
      · split at stepped <;> cases stepped
        · exact ⟨by dsimp only; omega, fun _ => by assumption, by dsimp only; omega, below⟩
        · exact ⟨by dsimp only; omega, by dsimp only; omega, by dsimp only; omega, below⟩
  | resume =>
      rw [callerStep] at stepped
      split at stepped <;> cases stepped
      exact ⟨by dsimp only [uncount]; omega, served, bounded, below⟩
  | cancelQueued => cases patient
  | cancelAssigned => cases patient

theorem refill_spent {bank : Bank} {pacing : Pacing} {seconds : ℚ} (spent : Spent bank)
    (collected : Collected bank (.refill seconds))
    (refilled : bank.pacing.refill seconds = some pacing) :
    Spent { bank with pacing := pacing } := by
  rcases spent with ⟨counted, served, bounded, below⟩
  rw [refill_some refilled]
  refine ⟨by dsimp only; omega, by dsimp only; omega, ?_, below⟩
  cases paced : bank.pacing.pacer.rate with
  | none =>
      have few := collected paced
      have amount : granted bank.pacing.pacer seconds =
          bank.pacing.pacer.waiting - bank.pacing.pacer.tokens := by rw [granted, paced]
      dsimp only
      omega
  | some rate =>
      have room := granted_le_burst paced seconds
      have short := le_trans (burst_le rate) (burst_tokens_mono (below rate paced))
      dsimp only
      omega

theorem bank_step_spent {bank after : Bank} {event : Event} (spent : Spent bank)
    (patient : Patient event = true) (collected : Collected bank event)
    (stepped : bankStep bank event = some after) : Spent after := by
  cases event with
  | caller caller =>
      rcases Option.map_eq_some_iff.mp stepped with ⟨pacing, moved, rfl⟩
      exact caller_spent spent patient moved
  | refill seconds =>
      rcases Option.map_eq_some_iff.mp stepped with ⟨pacing, moved, rfl⟩
      exact refill_spent spent collected moved
  | setRate rate =>
      cases stepped
      have top : bank.top ≤ rate.elim bank.top (max bank.top) := by
        cases rate with
        | none => exact le_rfl
        | some rate => exact le_max_left _ _
      refine ⟨spent.counted, spent.served, ?_, ?_⟩
      · exact le_trans spent.bounded (Nat.add_le_add_right (burst_tokens_mono top) _)
      · intro set same
        have same : rate = some set := same
        subst same
        exact le_max_right _ _

def CollectedStep (before after : Bank) : Prop :=
  ∃ event, (Patient event = true ∧ Collected before event) ∧ bankStep before event = some after

theorem reached_spent {bank : Bank} (reached : Relation.ReflTransGen CollectedStep {} bank) :
    Spent bank := by
  apply reachable_invariant Spent _ reached spent_fresh
  rintro before after spent ⟨event, ⟨patient, collected⟩, stepped⟩
  exact bank_step_spent spent patient collected stepped

/-- In a run in which refills without a rate find their tokens collected, nothing
but the burst is left when nobody is counted as waiting. -/
theorem nothing_banked {bank : Bank} (reached : Relation.ReflTransGen CollectedStep {} bank)
    (idle : bank.pacing.pacer.waiting = 0) :
    bank.pacing.pacer.tokens ≤ max 1 ⌊bank.top / 100⌋₊ := by
  have spent := reached_spent reached
  have counted := spent.counted
  have bounded := spent.bounded
  rw [burstTokens, max_comm] at bounded
  omega

/-- A caller waits for a token, the rate is cleared and the refill serves it. -/
theorem nothing_banked_served :
    ∃ bank, Relation.ReflTransGen CollectedStep {} bank ∧ bank.pacing.pacer.waiting = 0 ∧
      bank.pacing.pacer.tokens ≤ max 1 ⌊bank.top / 100⌋₊ := by
  have replayed : (List.foldlM (fun bank event =>
        if Patient event = true ∧ Collected bank event then bankStep bank event else none) {}
      [.setRate (some 1), .caller .call, .caller .count, .caller .arrive, .setRate none,
        .refill 1, .caller .resume]).map (fun bank => bank.pacing.pacer.waiting) = some 0 := by
    decide +kernel
  rcases Option.map_eq_some_iff.mp replayed with ⟨bank, ends, idle⟩
  have reached : Relation.ReflTransGen CollectedStep {} bank := admitted_replay_reaches ends
  exact ⟨bank, reached, idle, nothing_banked reached idle⟩

/-- Two callers are served by a refill, and the next one comes before they run. -/
theorem second_refill_banks :
    ∃ bank, Relation.ReflTransGen (fun before after => ∃ event, Patient event = true ∧
        bankStep before event = some after) {} bank ∧ bank.pacing.pacer.waiting = 0 ∧
      ¬ bank.pacing.pacer.tokens ≤ max 1 ⌊bank.top / 100⌋₊ := by
  have replayed : (List.foldlM (fun bank event =>
        if Patient event = true then bankStep bank event else none) {}
      [.setRate (some 1), .caller .call, .caller .call, .caller .count, .caller .count,
        .caller .arrive, .caller .arrive, .setRate none, .refill 1, .refill 1,
        .caller .resume, .caller .resume]).map (fun bank =>
          decide (bank.pacing.pacer.waiting = 0 ∧
            ¬ bank.pacing.pacer.tokens ≤ max 1 ⌊bank.top / 100⌋₊)) = some true := by
    decide +kernel
  rcases Option.map_eq_some_iff.mp replayed with ⟨bank, ends, broken⟩
  exact ⟨bank, admitted_replay_reaches ends, of_decide_eq_true broken⟩

section Uncollected

def Running (before after : Bank) : Prop :=
  ∃ caller, Patient (.caller caller) = true ∧ bankStep before (.caller caller) = some after

theorem arrivals_served (bank : Bank) (enough : bank.pacing.arriving ≤ bank.pacing.pacer.tokens) :
    Relation.ReflTransGen Running bank { bank with pacing := { bank.pacing with
      arriving := 0
      assigned := bank.pacing.assigned + bank.pacing.arriving
      pacer := { bank.pacing.pacer with
        tokens := bank.pacing.pacer.tokens - bank.pacing.arriving } } } := by
  rcases bank with ⟨⟨pacer, entering, arriving, queued, assigned⟩, top⟩
  induction arriving generalizing pacer assigned with
  | zero => exact .refl
  | succ arriving ih =>
      change arriving + 1 ≤ pacer.tokens at enough
      have free : pacer.tokens ≠ 0 := by omega
      have next := ih { pacer with tokens := pacer.tokens - 1 } (assigned + 1) (by
        dsimp only
        omega)
      apply Relation.ReflTransGen.head ⟨.arrive, rfl, by simp [bankStep, callerStep, free]; rfl⟩
      have fewer : pacer.tokens - (arriving + 1) = pacer.tokens - 1 - arriving := by omega
      have more : assigned + (arriving + 1) = assigned + 1 + arriving := by omega
      dsimp only
      rw [fewer, more]
      exact next

theorem assigned_resume (bank : Bank) :
    Relation.ReflTransGen Running bank { bank with pacing := { bank.pacing with
      assigned := 0
      pacer := { bank.pacing.pacer with
        waiting := bank.pacing.pacer.waiting - bank.pacing.assigned } } } := by
  rcases bank with ⟨⟨pacer, entering, arriving, queued, assigned⟩, top⟩
  induction assigned generalizing pacer with
  | zero => exact .refl
  | succ assigned ih =>
      have next := ih (uncount pacer)
      apply Relation.ReflTransGen.head ⟨.resume, rfl, by simp [bankStep, callerStep]; rfl⟩
      have fewer : pacer.waiting - (assigned + 1) = pacer.waiting - 1 - assigned := by omega
      dsimp only
      rw [fewer]
      exact next

/-- The condition is exact: the first refill to break it leaves more than the burst
as soon as everyone who waits has run. -/
theorem uncollected_refill_banks {bank after : Bank} {seconds : ℚ}
    (reached : Relation.ReflTransGen CollectedStep {} bank)
    (broken : ¬ Collected bank (.refill seconds))
    (refilled : bankStep bank (.refill seconds) = some after) :
    ∃ idle, Relation.ReflTransGen Running after idle ∧ idle.pacing.pacer.waiting = 0 ∧
      max 1 ⌊idle.top / 100⌋₊ < idle.pacing.pacer.tokens := by
  have spent := reached_spent reached
  have counted := spent.counted
  have served := spent.served
  have bounded := spent.bounded
  rcases Classical.not_imp.mp broken with ⟨unlimited, many⟩
  rcases Option.map_eq_some_iff.mp refilled with ⟨pacing, added, rfl⟩
  have amount : granted bank.pacing.pacer seconds =
      bank.pacing.pacer.waiting - bank.pacing.pacer.tokens := by rw [granted, unlimited]
  have same := refill_some added
  rw [amount] at same
  -- one free token for each caller on its way and one for each that was handed its own
  have tokens : pacing.pacer.tokens = bank.pacing.arriving + bank.pacing.assigned := by
    rw [same]
    dsimp only
    omega
  have arriving : pacing.arriving = bank.pacing.arriving := by rw [same]
  have assigned : pacing.assigned + pacing.arriving = pacing.pacer.waiting := by
    rw [same]
    dsimp only
    omega
  have arrive := arrivals_served { bank with pacing := pacing } (by
    dsimp only
    omega)
  have resume := assigned_resume { bank with pacing := { pacing with
    arriving := 0
    assigned := pacing.assigned + pacing.arriving
    pacer := { pacing.pacer with tokens := pacing.pacer.tokens - pacing.arriving } } }
  refine ⟨_, arrive.trans resume, ?_, ?_⟩
  · dsimp only
    omega
  · dsimp only
    rw [burstTokens, max_comm] at many
    omega

end Uncollected

end BlastDns.PacerBank
