import BlastDns.Config
import BlastDns.Runs
import Mathlib.Tactic.Linarith

/-!
Sentences in purgatory as calls of `record_error` and `record_response` make them
when they come one after another. Every failure is paid for once: by a sentence, by
a response that takes it back, or it is still in the count. How long a sentence
lasts is read off the configuration as it crosses the Python boundary.
-/

namespace BlastDns.Sentences

open Config Health Health.ResolverHealth NetText Runs

section Calls

variable (health : ResolverHealth)

theorem record_error_settings (isTimeout : Bool) (nowNs : ℕ) :
    (health.recordError isTimeout nowNs).purgatoryThreshold = health.purgatoryThreshold ∧
    (health.recordError isTimeout nowNs).purgatorySentenceNs = health.purgatorySentenceNs := by
  unfold recordError
  cases isTimeout <;> simp only [Bool.false_eq_true, if_true, if_false] <;> split_ifs <;>
    exact ⟨rfl, rfl⟩

theorem record_error_failures (isTimeout : Bool) (nowNs : ℕ) :
    (health.recordError isTimeout nowNs).timeout + (health.recordError isTimeout nowNs).error =
      health.timeout + health.error + 1 := by
  unfold recordError
  cases isTimeout <;> simp only [Bool.false_eq_true, if_true, if_false] <;> split_ifs <;>
    dsimp only <;> omega

variable {health}

theorem record_error_counted (isTimeout : Bool) (nowNs : ℕ)
    (early : health.purgatoryThreshold = 0 ∨
      health.consecutiveErrors + 1 < health.purgatoryThreshold) :
    (health.recordError isTimeout nowNs).consecutiveErrors = health.consecutiveErrors + 1 ∧
    (health.recordError isTimeout nowNs).purgatoryEntries = health.purgatoryEntries ∧
    (health.recordError isTimeout nowNs).benchedUntilNs = health.benchedUntilNs := by
  cases isTimeout <;> simp [recordError, early]

theorem record_error_sentenced (isTimeout : Bool) (nowNs : ℕ)
    (enabled : health.purgatoryThreshold ≠ 0)
    (due : health.purgatoryThreshold ≤ health.consecutiveErrors + 1)
    (lasting : health.purgatorySentenceNs ≠ 0) :
    (health.recordError isTimeout nowNs).consecutiveErrors = 0 ∧
    (health.recordError isTimeout nowNs).purgatoryEntries = health.purgatoryEntries + 1 ∧
    (health.recordError isTimeout nowNs).benchedUntilNs =
      (nowNs + health.purgatorySentenceNs % 2 ^ 64) % 2 ^ 64 := by
  have late : ¬ (health.purgatoryThreshold = 0 ∨
      health.consecutiveErrors + 1 < health.purgatoryThreshold) := by omega
  cases isTimeout <;> simp [recordError, late, lasting]

/-- What the purgatory of a resolver is made of. -/
def purgatory (health : ResolverHealth) : ℕ × ℕ × ℕ × ℕ × ℕ × ℕ :=
  (health.purgatoryThreshold, health.purgatorySentenceNs, health.timeout, health.error,
    health.benchedUntilNs, health.purgatoryEntries)

theorem record_rtt_purgatory (health : ResolverHealth) (rttUs nowNs : ℕ) :
    purgatory (health.recordRtt rttUs nowNs) = purgatory health ∧
    (health.recordRtt rttUs nowNs).consecutiveErrors = health.consecutiveErrors := by
  unfold recordRtt
  simp only
  split
  · exact ⟨rfl, rfl⟩
  · split <;> exact ⟨rfl, rfl⟩

/-- A response takes one failure back and touches nothing else of it. -/
theorem record_response_purgatory (health : ResolverHealth) (rttUs nowNs : ℕ)
    (hadAnswers : Bool) :
    purgatory (health.recordResponse rttUs nowNs hadAnswers) = purgatory health ∧
    (health.recordResponse rttUs nowNs hadAnswers).consecutiveErrors =
      health.consecutiveErrors - 1 := by
  unfold recordResponse
  cases hadAnswers <;> exact record_rtt_purgatory _ rttUs nowNs

end Calls

section Balance

inductive Call where
  | error (isTimeout : Bool)
  | response (rttUs : ℕ) (hadAnswers : Bool)

structure Tally where
  health : ResolverHealth
  -- when the latest call was made
  clockNs : ℕ := 0
  -- responses that found the count above zero
  decays : ℕ := 0
  -- when the latest sentence began
  began : Option ℕ := none

def Tally.record (tally : Tally) (nowNs : ℕ) : Call → Tally
  | .error isTimeout =>
      { tally with
        health := tally.health.recordError isTimeout nowNs
        clockNs := nowNs
        began :=
          if tally.health.purgatoryEntries <
              (tally.health.recordError isTimeout nowNs).purgatoryEntries then some nowNs
          else tally.began }
  | .response rttUs hadAnswers =>
      { tally with
        health := tally.health.recordResponse rttUs nowNs hadAnswers
        clockNs := nowNs
        decays := if 0 < tally.health.consecutiveErrors then tally.decays + 1 else tally.decays }

/-- The next call, in the order of the clock and before its nanoseconds run out. -/
def Calls (before after : Tally) : Prop :=
  ∃ nowNs call, before.clockNs ≤ nowNs ∧
    nowNs + before.health.purgatorySentenceNs < 2 ^ 64 ∧ after = before.record nowNs call

structure Balanced (threshold sentenceNs : ℕ) (tally : Tally) : Prop where
  threshold_eq : tally.health.purgatoryThreshold = threshold
  sentence_eq : tally.health.purgatorySentenceNs = sentenceNs
  below : tally.health.consecutiveErrors < threshold
  balance : tally.health.timeout + tally.health.error =
    threshold * tally.health.purgatoryEntries + tally.health.consecutiveErrors + tally.decays
  benched : tally.health.benchedUntilNs = tally.began.elim 0 (· + sentenceNs)
  past : ∀ start, tally.began = some start → start ≤ tally.clockNs

variable {threshold sentenceNs : ℕ} {tally : Tally}

/-- A failure that completes the count opens a sentence at its own time. -/
theorem sentence_balanced (lasting : 0 < sentenceNs) (balanced : Balanced threshold sentenceNs tally)
    {nowNs : ℕ} (fits : nowNs + sentenceNs < 2 ^ 64) (isTimeout : Bool)
    (due : threshold ≤ tally.health.consecutiveErrors + 1) :
    Balanced threshold sentenceNs (tally.record nowNs (.error isTimeout)) := by
  rcases balanced with ⟨rfl, rfl, below, balance, benched, past⟩
  have settings := record_error_settings tally.health isTimeout nowNs
  have failures := record_error_failures tally.health isTimeout nowNs
  have ⟨cleared, entered, ends⟩ := record_error_sentenced isTimeout nowNs
    (Nat.ne_zero_of_lt below) due lasting.ne'
  -- the count stood one below the threshold
  have full : tally.health.consecutiveErrors + 1 = tally.health.purgatoryThreshold := by omega
  have rises : tally.health.purgatoryEntries <
      (tally.health.recordError isTimeout nowNs).purgatoryEntries := by omega
  constructor
  · exact settings.1
  · exact settings.2
  · rw [Tally.record, cleared]
    exact Nat.zero_lt_of_lt below
  · rw [Tally.record]
    dsimp only
    rw [failures, balance, cleared, entered, Nat.mul_succ]
    omega
  · rw [Tally.record, if_pos rises]
    dsimp only
    rw [ends, Nat.mod_eq_of_lt (by omega : tally.health.purgatorySentenceNs < 2 ^ 64),
      Nat.mod_eq_of_lt fits]
    rfl
  · rw [Tally.record, if_pos rises]
    rintro start same
    cases same
    exact le_rfl

theorem failure_balanced (balanced : Balanced threshold sentenceNs tally)
    {nowNs : ℕ} (later : tally.clockNs ≤ nowNs) (isTimeout : Bool)
    (early : tally.health.consecutiveErrors + 1 < threshold) :
    Balanced threshold sentenceNs (tally.record nowNs (.error isTimeout)) := by
  rcases balanced with ⟨rfl, rfl, below, balance, benched, past⟩
  have settings := record_error_settings tally.health isTimeout nowNs
  have failures := record_error_failures tally.health isTimeout nowNs
  have ⟨counted, entered, ends⟩ := record_error_counted isTimeout nowNs (Or.inr early)
  have stays : ¬ tally.health.purgatoryEntries <
      (tally.health.recordError isTimeout nowNs).purgatoryEntries := by omega
  constructor
  · exact settings.1
  · exact settings.2
  · rw [Tally.record, counted]
    exact early
  · rw [Tally.record]
    dsimp only
    rw [failures, balance, counted, entered]
    omega
  · rw [Tally.record, if_neg stays]
    exact ends.trans benched
  · rw [Tally.record, if_neg stays]
    rintro start same
    exact le_trans (past start same) later

theorem error_balanced (lasting : 0 < sentenceNs) (balanced : Balanced threshold sentenceNs tally)
    {nowNs : ℕ} (later : tally.clockNs ≤ nowNs) (fits : nowNs + sentenceNs < 2 ^ 64)
    (isTimeout : Bool) : Balanced threshold sentenceNs (tally.record nowNs (.error isTimeout)) := by
  by_cases due : threshold ≤ tally.health.consecutiveErrors + 1
  · exact sentence_balanced lasting balanced fits isTimeout due
  · exact failure_balanced balanced later isTimeout (not_le.mp due)

theorem response_balanced (balanced : Balanced threshold sentenceNs tally) {nowNs : ℕ}
    (later : tally.clockNs ≤ nowNs) (rttUs : ℕ) (hadAnswers : Bool) :
    Balanced threshold sentenceNs (tally.record nowNs (.response rttUs hadAnswers)) := by
  rcases balanced with ⟨rfl, rfl, below, balance, benched, past⟩
  have ⟨kept, decayed⟩ := record_response_purgatory tally.health rttUs nowNs hadAnswers
  simp only [purgatory, Prod.mk.injEq] at kept
  rcases kept with ⟨threshold, sentence, timeout, error, ends, entries⟩
  constructor
  · exact threshold
  · exact sentence
  · rw [Tally.record, decayed]
    exact lt_of_le_of_lt (Nat.sub_le _ _) below
  · rw [Tally.record]
    dsimp only
    rw [timeout, error, balance, entries, decayed]
    split <;> omega
  · exact ends.trans benched
  · rintro start same
    exact le_trans (past start same) later

theorem calls_balanced (lasting : 0 < sentenceNs) {after : Tally}
    (balanced : Balanced threshold sentenceNs tally) (called : Calls tally after) :
    Balanced threshold sentenceNs after := by
  rcases called with ⟨nowNs, call, later, fits, rfl⟩
  cases call with
  | error isTimeout =>
      rw [balanced.sentence_eq] at fits
      exact error_balanced lasting balanced later fits isTimeout
  | response rttUs hadAnswers => exact response_balanced balanced later rttUs hadAnswers

theorem run_balanced (lasting : 0 < sentenceNs) {later : Tally}
    (balanced : Balanced threshold sentenceNs tally)
    (goes : Relation.ReflTransGen Calls tally later) : Balanced threshold sentenceNs later := by
  apply reachable_invariant (Balanced threshold sentenceNs) _ goes balanced
  rintro before after held called
  exact calls_balanced lasting held called

theorem calls_until {after : Tally} (balanced : Balanced threshold sentenceNs tally)
    (kept : Balanced threshold sentenceNs after) (called : Calls tally after) :
    tally.health.benchedUntilNs ≤ after.health.benchedUntilNs := by
  rcases called with ⟨nowNs, call, later, _, rfl⟩
  rw [balanced.benched, kept.benched]
  cases call with
  | error isTimeout =>
      rw [Tally.record]
      dsimp only
      split
      · cases began : tally.began with
        | none => exact Nat.zero_le _
        | some start =>
            have past := balanced.past start began
            dsimp only [Option.elim]
            omega
      · exact le_rfl
  | response rttUs hadAnswers => exact le_rfl

/-- After every call: the count is below the threshold, every failure is accounted
for, no later call moves the end of the sentence back, and the resolver is benched
just until its latest sentence is over. -/
theorem purgatory_balance (resolver : SocketAddr) (config : BlastDNSConfig)
    (enabled : 1 ≤ config.purgatoryThreshold) (lasting : 0 < config.purgatorySentenceNs)
    {tally : Tally}
    (reached : Relation.ReflTransGen Calls { health := newHealth resolver config } tally) :
    tally.health.consecutiveErrors ≤ config.purgatoryThreshold - 1 ∧
    tally.health.timeout + tally.health.error =
      config.purgatoryThreshold * tally.health.purgatoryEntries +
        tally.health.consecutiveErrors + tally.decays ∧
    (∀ later, Relation.ReflTransGen Calls tally later →
      tally.health.benchedUntilNs ≤ later.health.benchedUntilNs) ∧
    ∀ timeNs, tally.health.isBenched timeNs = true ↔
      ∃ start, tally.began = some start ∧ timeNs < start + config.purgatorySentenceNs := by
  have balanced : Balanced config.purgatoryThreshold config.purgatorySentenceNs tally := by
    refine run_balanced lasting ?_ reached
    exact ⟨rfl, rfl, enabled, rfl, rfl, by simp⟩
  refine ⟨Nat.le_sub_one_of_lt balanced.below, balanced.balance, ?_, ?_⟩
  · rintro later goes
    induction goes with
    | refl => exact le_rfl
    | tail goes called ih =>
        have between := run_balanced lasting balanced goes
        exact le_trans ih (calls_until between (calls_balanced lasting between called) called)
  · intro timeNs
    rw [isBenched, balanced.benched]
    cases began : tally.began with
    | none => simp
    | some start => exact decide_eq_true_iff.trans (by simp)

def twoStrikes : BlastDNSConfig := { purgatoryThreshold := 2, purgatorySentenceNs := 5 }

/-- Two failures with an answer between them, and a third that earns the sentence. -/
theorem purgatory_balance_two :
    ∃ tally, Relation.ReflTransGen Calls
        { health := newHealth (.v4 ⟨127, 0, 0, 1⟩ 53) twoStrikes } tally ∧
      tally.health.purgatoryEntries = 1 ∧ tally.decays = 1 ∧
      tally.health.timeout + tally.health.error =
        2 * tally.health.purgatoryEntries + tally.health.consecutiveErrors + tally.decays := by
  let fresh : Tally := { health := newHealth (.v4 ⟨127, 0, 0, 1⟩ 53) twoStrikes }
  let first := fresh.record 1 (.error true)
  let second := first.record 2 (.response 30 false)
  let third := second.record 3 (.error false)
  let fourth := third.record 3 (.error true)
  have reached : Relation.ReflTransGen Calls fresh fourth :=
    (((Relation.ReflTransGen.refl.tail ⟨1, .error true, by decide, by decide, rfl⟩).tail
      ⟨2, .response 30 false, by decide, by decide, rfl⟩).tail
      ⟨3, .error false, by decide, by decide, rfl⟩).tail
      ⟨3, .error true, by decide, by decide, rfl⟩
  have balance := purgatory_balance (.v4 ⟨127, 0, 0, 1⟩ 53) twoStrikes (by decide) (by decide)
    reached
  exact ⟨fourth, reached, by decide, by decide, balance.2.1⟩

end Balance

section Served

/-- The resolver after the first calls of `record_error`, each with its kind and time. -/
def failing (health : ResolverHealth) (calls : ℕ → Bool × ℕ) : ℕ → ResolverHealth
  | 0 => health
  | made + 1 => (failing health calls made).recordError (calls made).1 (calls made).2

def fromWire (resolver : SocketAddr) (wire : BlastDNSConfigWire) : ResolverHealth :=
  newHealth resolver (.ofWire wire)

/-- After each of the first `count` calls the resolver is benched for the sentence
the wire asks for, from the latest time its count reached the threshold, and never
when the wire disables benching. Clocks read u64 nanoseconds. -/
def SentenceServed (resolver : SocketAddr) (wire : BlastDNSConfigWire) (calls : ℕ → Bool × ℕ)
    (count : ℕ) : Prop :=
  ∀ made ≤ count,
    if wire.purgatoryThreshold = 0 ∨ wire.purgatorySentenceMs = 0 then
      (∀ timeNs, (failing (fromWire resolver wire) calls made).isBenched timeNs = false) ∧
        (failing (fromWire resolver wire) calls made).purgatoryEntries = 0
    else
      ∀ timeNs < 2 ^ 64, (∀ call < made, (calls call).2 ≤ timeNs) →
        ((failing (fromWire resolver wire) calls made).isBenched timeNs = true ↔
          ∃ call < made, wire.purgatoryThreshold ≤
              (failing (fromWire resolver wire) calls call).consecutiveErrors + 1 ∧
            timeNs < (calls call).2 + wire.purgatorySentenceMs * 10 ^ 6)

section Failing

variable (health : ResolverHealth) (calls : ℕ → Bool × ℕ)

theorem failing_settings (made : ℕ) :
    (failing health calls made).purgatoryThreshold = health.purgatoryThreshold ∧
    (failing health calls made).purgatorySentenceNs = health.purgatorySentenceNs := by
  induction made with
  | zero => exact ⟨rfl, rfl⟩
  | succ made ih =>
      have kept := record_error_settings (failing health calls made) (calls made).1 (calls made).2
      exact ⟨kept.1.trans ih.1, kept.2.trans ih.2⟩

/-- Where the sentence that begins with this call would end on a clock of 64 bits. -/
def sentenceEnd (call : ℕ) : ℕ :=
  ((calls call).2 + health.purgatorySentenceNs % 2 ^ 64) % 2 ^ 64

variable {health}

theorem failing_counts (made : ℕ)
    (early : health.purgatoryThreshold = 0 ∨
      (failing health calls made).consecutiveErrors + 1 < health.purgatoryThreshold) :
    (failing health calls (made + 1)).consecutiveErrors =
      (failing health calls made).consecutiveErrors + 1 ∧
    (failing health calls (made + 1)).purgatoryEntries =
      (failing health calls made).purgatoryEntries ∧
    (failing health calls (made + 1)).benchedUntilNs =
      (failing health calls made).benchedUntilNs := by
  rw [← (failing_settings health calls made).1] at early
  exact record_error_counted _ _ early

theorem failing_disabled (disabled : health.purgatoryThreshold = 0) (made : ℕ) :
    (failing health calls made).benchedUntilNs = health.benchedUntilNs ∧
    (failing health calls made).purgatoryEntries = health.purgatoryEntries := by
  induction made with
  | zero => exact ⟨rfl, rfl⟩
  | succ made ih =>
      have ⟨_, entered, ends⟩ := failing_counts calls made (Or.inl disabled)
      exact ⟨ends.trans ih.1, entered.trans ih.2⟩

/-- Benching is on, and nothing has been held against the resolver yet. -/
structure Unmarked (health : ResolverHealth) : Prop where
  enabled : 0 < health.purgatoryThreshold
  lasting : 0 < health.purgatorySentenceNs
  clear : health.consecutiveErrors = 0
  fresh : health.purgatoryEntries = 0
  free : health.benchedUntilNs = 0

variable (unmarked : Unmarked health) (made : ℕ)

include unmarked

theorem failing_enters
    (due : health.purgatoryThreshold ≤ (failing health calls made).consecutiveErrors + 1) :
    (failing health calls (made + 1)).consecutiveErrors = 0 ∧
    (failing health calls (made + 1)).purgatoryEntries =
      (failing health calls made).purgatoryEntries + 1 ∧
    (failing health calls (made + 1)).benchedUntilNs = sentenceEnd health calls made := by
  have ⟨threshold, sentence⟩ := failing_settings health calls made
  have enabled := unmarked.enabled
  have lasting := unmarked.lasting
  rw [sentenceEnd, ← sentence]
  exact record_error_sentenced _ _ (by omega) (by omega) (by omega)

/-- Without responses every failure is in a sentence or in the count. -/
theorem failing_total :
    (failing health calls made).consecutiveErrors < health.purgatoryThreshold ∧
    made = health.purgatoryThreshold * (failing health calls made).purgatoryEntries +
      (failing health calls made).consecutiveErrors := by
  induction made with
  | zero =>
      rw [failing, unmarked.clear, unmarked.fresh]
      exact ⟨unmarked.enabled, rfl⟩
  | succ made ih =>
      rcases ih with ⟨below, total⟩
      by_cases due : health.purgatoryThreshold ≤
          (failing health calls made).consecutiveErrors + 1
      · have ⟨cleared, entered, _⟩ := failing_enters calls unmarked made due
        rw [cleared, entered, Nat.mul_succ]
        exact ⟨unmarked.enabled, by omega⟩
      · have ⟨counted, entered, _⟩ := failing_counts calls made (Or.inr (not_le.mp due))
        rw [counted, entered]
        exact ⟨not_le.mp due, by omega⟩

theorem reaches_iff :
    health.purgatoryThreshold ≤ (failing health calls made).consecutiveErrors + 1 ↔
      health.purgatoryThreshold ∣ made + 1 := by
  have ⟨below, total⟩ := failing_total calls unmarked made
  have next : made + 1 = health.purgatoryThreshold *
      (failing health calls made).purgatoryEntries +
        ((failing health calls made).consecutiveErrors + 1) := by omega
  rw [next, Nat.dvd_add_right (Nat.dvd_mul_right _ _)]
  constructor
  · intro due
    rw [show (failing health calls made).consecutiveErrors + 1 = health.purgatoryThreshold by
      omega]
  · exact Nat.le_of_dvd (Nat.succ_pos _)

/-- The bench is as the latest call whose number the threshold divides left it. -/
theorem failing_benched :
    ((failing health calls made).benchedUntilNs = 0 ∧
      ∀ call < made, ¬ health.purgatoryThreshold ∣ call + 1) ∨
    ∃ call < made, health.purgatoryThreshold ∣ call + 1 ∧
      (failing health calls made).benchedUntilNs = sentenceEnd health calls call ∧
      ∀ other < made, health.purgatoryThreshold ∣ other + 1 → other ≤ call := by
  induction made with
  | zero => exact Or.inl ⟨unmarked.free, by simp⟩
  | succ made ih =>
      have reaches := reaches_iff calls unmarked made
      by_cases due : health.purgatoryThreshold ∣ made + 1
      · have ⟨_, _, ends⟩ := failing_enters calls unmarked made (reaches.mpr due)
        exact Or.inr ⟨made, Nat.lt_succ_self made, due, ends,
          fun other before _ => Nat.le_of_lt_succ before⟩
      · have early := not_le.mp fun reached => due (reaches.mp reached)
        have ⟨_, _, ends⟩ := failing_counts calls made (Or.inr early)
        rw [ends]
        rcases ih with ⟨none, idle⟩ | ⟨call, before, hit, same, latest⟩
        · left
          refine ⟨none, ?_⟩
          intro call before
          rcases Nat.lt_succ_iff_lt_or_eq.mp before with inside | last
          · exact idle call inside
          · rwa [last]
        · right
          refine ⟨call, Nat.lt_succ_of_lt before, hit, same, ?_⟩
          intro other earlier divides
          rcases Nat.lt_succ_iff_lt_or_eq.mp earlier with inside | last
          · exact latest other inside divides
          · rw [last] at divides
            exact absurd divides due

end Failing

section Wire

variable {resolver : SocketAddr} {wire : BlastDNSConfigWire} {calls : ℕ → Bool × ℕ} {count : ℕ}

theorem from_wire_unmarked (resolver : SocketAddr) (enabled : 0 < wire.purgatoryThreshold) :
    Unmarked (fromWire resolver wire) where
  enabled := enabled
  lasting := Nat.mul_pos (lt_of_lt_of_le one_pos (le_max_right _ _)) (by norm_num)
  clear := rfl
  fresh := rfl
  free := rfl

theorem disabled_serves (disabled : wire.purgatoryThreshold = 0) :
    SentenceServed resolver wire calls count := by
  intro made _
  have off : (fromWire resolver wire).purgatoryThreshold = 0 := disabled
  have ⟨free, unentered⟩ := failing_disabled calls off made
  rw [if_pos (Or.inl disabled)]
  constructor
  · intro timeNs
    rw [isBenched, free]
    exact decide_eq_false (Nat.not_lt_zero timeNs)
  · exact unentered

/-- A sentence of zero is served as long as none is earned. -/
theorem unearned_serves (enabled : 0 < wire.purgatoryThreshold)
    (zero : wire.purgatorySentenceMs = 0)
    (unearned : ∀ call < count, ¬ wire.purgatoryThreshold ∣ call + 1) :
    SentenceServed resolver wire calls count := by
  intro made within
  have unmarked := from_wire_unmarked resolver enabled
  rw [if_pos (Or.inr zero)]
  constructor
  · intro timeNs
    rcases failing_benched calls unmarked made with ⟨free, _⟩ | ⟨call, before, hit, _⟩
    · rw [isBenched, free]
      exact decide_eq_false (Nat.not_lt_zero timeNs)
    · exact absurd hit (unearned call (lt_of_lt_of_le before within))
  · have ⟨below, total⟩ := failing_total calls unmarked made
    by_contra some
    -- a first sentence is earned by as many calls as the threshold
    have long : wire.purgatoryThreshold ≤ made := by
      have once := Nat.le_mul_of_pos_right wire.purgatoryThreshold (Nat.pos_of_ne_zero some)
      change made = wire.purgatoryThreshold * _ + _ at total
      omega
    refine unearned (wire.purgatoryThreshold - 1) (by omega) ?_
    rw [Nat.sub_add_cancel enabled]

theorem timely_serves (enabled : 0 < wire.purgatoryThreshold)
    (lasting : 0 < wire.purgatorySentenceMs) (ordered : Monotone fun call => (calls call).2)
    (fits : ∀ call < count, wire.purgatoryThreshold ∣ call + 1 →
      (calls call).2 + wire.purgatorySentenceMs * 10 ^ 6 < 2 ^ 64) :
    SentenceServed resolver wire calls count := by
  intro made within
  have unmarked := from_wire_unmarked resolver enabled
  have sentence : (fromWire resolver wire).purgatorySentenceNs =
      wire.purgatorySentenceMs * 10 ^ 6 := by
    change max wire.purgatorySentenceMs 1 * 10 ^ 6 = _
    rw [max_eq_left lasting]
  have reaches := reaches_iff calls unmarked
  rw [if_neg (by omega)]
  intro timeNs _ _
  rcases failing_benched calls unmarked made with ⟨free, idle⟩ | ⟨call, before, hit, same, latest⟩
  · rw [isBenched, free]
    constructor
    · intro benched
      exact absurd (of_decide_eq_true benched) (Nat.not_lt_zero timeNs)
    · rintro ⟨other, earlier, due, _⟩
      exact absurd ((reaches other).mp due) (idle other earlier)
  · have short := fits call (lt_of_lt_of_le before within) hit
    have ends : sentenceEnd (fromWire resolver wire) calls call =
        (calls call).2 + wire.purgatorySentenceMs * 10 ^ 6 := by
      rw [sentenceEnd, sentence, Nat.mod_eq_of_lt (by omega :
        wire.purgatorySentenceMs * 10 ^ 6 < 2 ^ 64), Nat.mod_eq_of_lt short]
    rw [isBenched, same, ends, decide_eq_true_eq]
    constructor
    · intro benched
      exact ⟨call, before, (reaches call).mpr hit, benched⟩
    · rintro ⟨other, earlier, due, benched⟩
      have order := ordered (latest other earlier ((reaches other).mp due))
      dsimp only at order
      omega

/-- A call that earns a sentence of zero is punished all the same, and one whose end
the clock cannot show is cut short. -/
theorem served_fits (clock : ∀ call, (calls call).2 < 2 ^ 64)
    (served : SentenceServed resolver wire calls count) {call : ℕ} (within : call < count)
    (hit : wire.purgatoryThreshold ∣ call + 1) :
    0 < wire.purgatorySentenceMs ∧
      (calls call).2 + wire.purgatorySentenceMs * 10 ^ 6 < 2 ^ 64 := by
  have enabled : 0 < wire.purgatoryThreshold := by
    rcases Nat.eq_zero_or_pos wire.purgatoryThreshold with zero | enabled
    · rw [zero] at hit
      exact absurd (Nat.eq_zero_of_zero_dvd hit) (Nat.succ_ne_zero call)
    · exact enabled
  have unmarked := from_wire_unmarked resolver enabled
  have due := (reaches_iff calls unmarked call).mpr hit
  have ⟨_, entered, ends⟩ := failing_enters calls unmarked call due
  have after := served (call + 1) within
  rcases Nat.eq_zero_or_pos wire.purgatorySentenceMs with zero | lasting
  · rw [if_pos (Or.inr zero), entered] at after
    exact absurd after.2 (Nat.succ_ne_zero _)
  · refine ⟨lasting, ?_⟩
    by_contra long
    rw [if_neg (by omega)] at after
    -- the last moment of the clock lies inside the sentence, and after its end as stored
    have last := after (2 ^ 64 - 1) (by norm_num) (fun other _ => Nat.le_sub_one_of_lt (clock other))
    have benched := last.mpr ⟨call, Nat.lt_succ_self call, due, by omega⟩
    rw [isBenched, ends, decide_eq_true_eq, sentenceEnd] at benched
    have wrapped := Nat.mod_lt ((calls call).2 +
      (fromWire resolver wire).purgatorySentenceNs % 2 ^ 64) (by norm_num : 0 < 2 ^ 64)
    omega

/-- Over every sequence of failures the sentence served is the one configured just
when each call that is due for a sentence asks for at least a millisecond and for an
end that fits the clock. -/
theorem sentence_served_iff (resolver : SocketAddr) (wire : BlastDNSConfigWire)
    (calls : ℕ → Bool × ℕ) (count : ℕ) (ordered : Monotone fun call => (calls call).2)
    (clock : ∀ call, (calls call).2 < 2 ^ 64) :
    SentenceServed resolver wire calls count ↔
      ∀ call < count, wire.purgatoryThreshold ∣ call + 1 →
        0 < wire.purgatorySentenceMs ∧
          (calls call).2 + wire.purgatorySentenceMs * 10 ^ 6 < 2 ^ 64 := by
  constructor
  · intro served call within hit
    exact served_fits clock served within hit
  · intro fits
    rcases Nat.eq_zero_or_pos wire.purgatoryThreshold with disabled | enabled
    · exact disabled_serves disabled
    · rcases Nat.eq_zero_or_pos wire.purgatorySentenceMs with zero | lasting
      · refine unearned_serves enabled zero ?_
        intro call within hit
        exact absurd (fits call within hit).1 (by omega)
      · exact timely_serves enabled lasting ordered fun call within hit =>
          (fits call within hit).2

def purgatoryWire (threshold sentenceMs : ℕ) : BlastDNSConfigWire where
  maxInflightPerResolver := 2
  maxConcurrency := 256
  rateLimit := none
  adaptive := true
  resolverProbe := false
  persistentSocket := false
  requestTimeoutMs := 1000
  maxRetries := 10
  purgatoryThreshold := threshold
  purgatorySentenceMs := sentenceMs
  cacheCapacity := 10000
  cacheMinTtlSecs := 10
  cacheMaxTtlSecs := 86400

/-- Three failures a second apart, the second of which earns a second on the bench. -/
theorem sentence_served_second :
    SentenceServed (.v4 ⟨127, 0, 0, 1⟩ 53) (purgatoryWire 2 1000)
      (fun call => (true, min call 3 * 10 ^ 9)) 3 := by
  refine (sentence_served_iff _ _ _ _ ?_ ?_).mpr ?_
  · intro first second order
    dsimp only
    omega
  · intro call
    dsimp only
    omega
  · intro call within _
    dsimp only [purgatoryWire]
    omega

/-- With a sentence of zero the first failure benches the resolver for a millisecond. -/
theorem zero_sentence_benches :
    ¬ SentenceServed (.v4 ⟨127, 0, 0, 1⟩ 53) (purgatoryWire 1 0) (fun _ => (true, 0)) 1 := by
  intro served
  have zero : (purgatoryWire 1 0).purgatorySentenceMs = 0 := rfl
  have after := served 1 le_rfl
  rw [if_pos (Or.inr zero)] at after
  exact absurd (after.1 0) (by decide)

end Wire

end Served

end BlastDns.Sentences
