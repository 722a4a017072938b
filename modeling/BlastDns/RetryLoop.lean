import BlastDns.Resolve

/-!
What the retry loop of `resolve_full` returns and what it leaves behind. A call
stops at its first conclusive attempt, or at the last one it may make: the loop
tests for it in two forms that agree. The attempt it stops at decides the exit.
-/

namespace BlastDns.RetryLoop

open Lru Cache Worker Controller Resolve Config

/-- The attempt ends the call wherever it stands: a NOERROR or NXDOMAIN response, or
an error no retry can mend. -/
def conclusive (sent : Attempt) : Bool :=
  match sent.outcome with
  | .ok response => answersTheQuestion response
  | .error err => !err.isRetryable

structure StopsAt (call : Call) (attempts stop : ℕ) : Prop where
  within : stop < attempts
  earlier : ∀ attempt < stop, conclusive (call.attempts attempt) = false
  settles : conclusive (call.attempts stop) = true ∨ stop + 1 = attempts

theorem stops_exists (call : Call) {attempts : ℕ} (some : 0 < attempts) :
    ∃ stop, StopsAt call attempts stop := by
  classical
  have last : ∃ stop, conclusive (call.attempts stop) = true ∨ stop + 1 = attempts :=
    ⟨attempts - 1, Or.inr (by omega)⟩
  have early : ∀ attempt < Nat.find last,
      conclusive (call.attempts attempt) = false ∧ attempt + 1 ≠ attempts := by
    intro attempt before
    have continues := Nat.find_min last before
    rw [not_or, Bool.not_eq_true] at continues
    exact continues
  refine ⟨Nat.find last, ?_, fun attempt before => (early attempt before).1, Nat.find_spec last⟩
  by_contra late
  exact (early (attempts - 1) (by omega)).2 (by omega)

theorem stops_unique {call : Call} {attempts stop other : ℕ} (one : StopsAt call attempts stop)
    (two : StopsAt call attempts other) : stop = other := by
  have ordered : ∀ {first second : ℕ}, StopsAt call attempts first →
      StopsAt call attempts second → ¬ first < second := by
    intro first second here there before
    rcases here.settles with ends | last
    · rw [there.earlier first before] at ends
      cases ends
    · have within := there.within
      omega
  have lower := ordered one two
  have upper := ordered two one
  omega

theorem attempts_for_pos (maxRetries : ℕ) : 0 < attemptsFor maxRetries := by
  rw [attemptsFor]
  exact lt_min (Nat.succ_pos maxRetries) (by rw [usizeMax]; norm_num)

section Loop

variable {Name : Type} [DecidableEq Name] {lru : LruCache (Name × ℕ) CacheEntry}
variable (parse : String → Option Name) (latest : ℕ)

def settle (query : QuerySpec) (answer : Answer) (now : ℕ) (state : ClientState lru) :
    Option (ClientState lru) :=
  match answer with
  | .ok response => (state.store parse latest query response now).map ClientState.completed
  | .error err => some (if err.isCongestionEvidence then state.completed.failed else state)

def offers (state : ClientState lru) (query : QuerySpec) (count : ℕ) : ClientState lru :=
  { state with offered := state.offered ++ List.replicate count query }

theorem offer_offers (state : ClientState lru) (query : QuerySpec) (count : ℕ) :
    offers (state.offer query) query count = offers state query (count + 1) := by
  simp [offers, ClientState.offer, List.replicate_succ]

variable {query : QuerySpec} {call : Call} {attempts remaining : ℕ} {state : ClientState lru}

theorem loop_continues {attempt : ℕ} (position : attempt + (remaining + 1) = attempts)
    (inconclusive : conclusive (call.attempts attempt) = false) (more : attempt + 1 ≠ attempts) :
    resolveLoop parse latest query call attempts (remaining + 1) state =
      resolveLoop parse latest query call attempts remaining (state.offer query) := by
  have index : attempts - (remaining + 1) = attempt := by omega
  have below : attempt + 1 < attempts := by omega
  rw [resolveLoop, index]
  cases sent : call.attempts attempt with
  | closed =>
      rw [sent] at inconclusive
      cases inconclusive
  | dropped => simp [Attempt.outcome, more, BlastDNSError.isRetryable]
  | answered result =>
      rw [sent, conclusive] at inconclusive
      cases result with
      | ok response =>
          have declined : answersTheQuestion response = false := inconclusive
          simp [Attempt.outcome, declined, below]
      | error err =>
          have retryable : err.isRetryable = true := by
            simpa [Attempt.outcome] using inconclusive
          simp [Attempt.outcome, retryable, more]

theorem loop_exits {attempt : ℕ} (position : attempt + (remaining + 1) = attempts)
    (ends : conclusive (call.attempts attempt) = true ∨ attempt + 1 = attempts) :
    resolveLoop parse latest query call attempts (remaining + 1) state =
      (settle parse latest query (call.attempts attempt).outcome (call.settledAt attempt)
        (state.offer query)).map fun after => (some (call.attempts attempt).outcome, after) := by
  have index : attempts - (remaining + 1) = attempt := by omega
  rw [resolveLoop, index]
  cases sent : call.attempts attempt with
  | closed => rfl
  | dropped =>
      have last : attempt + 1 = attempts := by simpa [sent, conclusive, Attempt.outcome,
        BlastDNSError.isRetryable] using ends
      simp [Attempt.outcome, settle, last]
  | answered result =>
      rw [sent, conclusive] at ends
      cases result with
      | ok response =>
          have accepted : (!answersTheQuestion response && decide (attempt + 1 < attempts)) = false := by
            rcases ends with answers | last
            · have answers : answersTheQuestion response = true := answers
              simp [answers]
            · simp [last]
          simp only [Attempt.outcome, settle, accepted, Bool.false_eq_true, if_false,
            Option.map_map]
          cases (state.offer query).store parse latest query response (call.settledAt attempt) <;> rfl
      | error err =>
          have final : (decide (attempt + 1 = attempts) || !err.isRetryable) = true := by
            rcases ends with ends | last
            · have ends : (!err.isRetryable) = true := ends
              simp [ends]
            · simp [last]
          simp only [Attempt.outcome, settle, final, if_true, Option.map_some]

theorem loop_stops {attempt stop : ℕ} (stops : StopsAt call attempts stop)
    (position : attempt + remaining = attempts) (ahead : attempt ≤ stop) :
    resolveLoop parse latest query call attempts remaining state =
      (settle parse latest query (call.attempts stop).outcome (call.settledAt stop)
        (offers state query (stop - attempt + 1))).map
          fun after => (some (call.attempts stop).outcome, after) := by
  induction remaining generalizing attempt state with
  | zero =>
      have within := stops.within
      omega
  | succ remaining ih =>
      by_cases here : attempt = stop
      · subst here
        rw [loop_exits parse latest position stops.settles, Nat.sub_self]
        rfl
      · have before : attempt < stop := lt_of_le_of_ne ahead here
        have more : attempt + 1 ≠ attempts := by
          have within := stops.within
          omega
        have counted : stop - attempt + 1 = stop - (attempt + 1) + 1 + 1 := by omega
        rw [loop_continues parse latest position (stops.earlier attempt before) more,
          ih (by omega) before, offer_offers, counted]

def Unanswered (state : ClientState lru) (call : Call) : Prop :=
  ∀ cache name, state.cache = some cache → parse call.query.host = some name →
    live cache (name, call.query.recordType) call.askedAt = none

/-- Storing what the attempt brought does not panic. -/
def Storable (state : ClientState lru) (sent : Attempt) (now : ℕ) : Prop :=
  ∀ cache response, state.cache = some cache → sent.outcome = .ok response →
    Cacheable response → cache.minTtlNs ≤ cache.maxTtlNs ∧
      now + lifetime cache.minTtlNs cache.maxTtlNs response ≤ latest

/-- What a call that consumed some attempts leaves. `cache` is what its lookup left. -/
structure Settled (before after : ClientState lru) (cache : Option (SimpleCache lru))
    (query : QuerySpec) (consumed : ℕ) (answer : Answer) : Prop where
  offered : after.offered = before.offered ++ List.replicate consumed query
  counted : ∀ response, answer = .ok response →
    after.outcomes = ⟨before.outcomes.completed + 1, before.outcomes.failed⟩
  lost : ∀ err, answer = .error err → err.isCongestionEvidence = true →
    after.outcomes = ⟨before.outcomes.completed + 1, before.outcomes.failed + 1⟩
  uncounted : ∀ err, answer = .error err → err.isCongestionEvidence = false →
    after.outcomes = before.outcomes
  unwritten : ∀ err, answer = .error err → after.cache = cache

/-- Whether there is a cache, and whether the name can be read, decides what a lookup
looks at. -/
theorem lookup_cases (state : ClientState lru) (query : QuerySpec) (now : ℕ) :
    (state.lookup parse query now = (none, state) ∧
      ∀ cache name, state.cache = some cache → parse query.host ≠ some name) ∨
    ∃ cache name, state.cache = some cache ∧ parse query.host = some name ∧
      state.lookup parse query now = ((cache.get (name, query.recordType) now).1,
        { state with cache := some (cache.get (name, query.recordType) now).2 }) := by
  rw [ClientState.lookup]
  cases held : state.cache with
  | none =>
      left
      constructor
      · rfl
      · rintro cache name impossible
        cases impossible
  | some cache =>
      cases named : parse query.host with
      | none =>
          left
          constructor
          · rfl
          · rintro _ name _ impossible
            cases impossible
      | some name =>
          right
          exact ⟨cache, name, rfl, rfl, rfl⟩

theorem lookup_cache {query : QuerySpec} {now : ℕ} {after : SimpleCache lru}
    (held : (state.lookup parse query now).2.cache = some after) :
    ∃ cache, state.cache = some cache ∧
      (after = cache ∨ ∃ name, parse query.host = some name ∧
        LookedUp cache after (name, query.recordType) now) := by
  rcases lookup_cases parse state query now with ⟨same, _⟩ | ⟨cache, name, before, named, same⟩
  · rw [same] at held
    exact ⟨after, held, Or.inl rfl⟩
  · rw [same] at held
    cases held
    exact ⟨cache, before, Or.inr ⟨name, named, (get_effect cache _ now).2⟩⟩

theorem looked_up_settings {query : QuerySpec} {now : ℕ} {found : SimpleCache lru}
    (held : (state.lookup parse query now).2.cache = some found) :
    ∃ cache, state.cache = some cache ∧ found.minTtlNs = cache.minTtlNs ∧
      found.maxTtlNs = cache.maxTtlNs ∧ lru.capacity found.inner = lru.capacity cache.inner := by
  rcases lookup_cache parse held with ⟨cache, before, same | ⟨_, _, looked⟩⟩
  · subst same
    exact ⟨found, before, rfl, rfl, rfl⟩
  · exact ⟨cache, before, looked.minTtl, looked.maxTtl, looked.capacity⟩

theorem unanswered_iff {call : Call} :
    Unanswered parse state call ↔ (state.lookup parse call.query call.askedAt).1 = none := by
  rcases lookup_cases parse state call.query call.askedAt with
    ⟨same, nothing⟩ | ⟨cache, name, held, named, same⟩
  · rw [same]
    constructor
    · intro _
      rfl
    · intro _ cache name held named
      exact absurd named (nothing cache name held)
  · rw [same]
    dsimp only
    rw [(get_effect cache (name, call.query.recordType) call.askedAt).1, Option.map_eq_none_iff]
    constructor
    · intro unanswered
      exact unanswered cache name held named
    · rintro missed _ _ again other
      rw [held] at again
      rw [named] at other
      cases again
      cases other
      exact missed

theorem settled_looked_up {query : QuerySpec} {now consumed : ℕ} {answer : Answer}
    {after : ClientState lru} {cache : Option (SimpleCache lru)}
    (settled : Settled (state.lookup parse query now).2 after cache query consumed answer) :
    Settled state after cache query consumed answer := by
  rcases lookup_cases parse state query now with ⟨same, _⟩ | ⟨_, _, _, _, same⟩
  · rw [same] at settled
    exact settled
  · rw [same] at settled
    exact ⟨settled.offered, settled.counted, settled.lost, settled.uncounted, settled.unwritten⟩

theorem store_cases (state : ClientState lru) (query : QuerySpec) (response : DnsResponse)
    (now : ℕ) :
    (state.store parse latest query response now = some state ∧
      (response.answers = [] ∨
        ∀ cache name, state.cache = some cache → parse query.host ≠ some name)) ∨
    ∃ cache name, state.cache = some cache ∧ parse query.host = some name ∧
      state.store parse latest query response now =
        (cache.insert latest (name, query.recordType) response now).map fun cache =>
          { state with cache := some cache } := by
  rw [ClientState.store]
  cases held : state.cache with
  | none =>
      left
      constructor
      · rfl
      · right
        rintro cache name impossible
        cases impossible
  | some cache =>
      cases answers : response.answers with
      | nil => exact Or.inl ⟨rfl, Or.inl rfl⟩
      | cons record rest =>
          cases named : parse query.host with
          | none =>
              left
              constructor
              · rfl
              · right
                rintro _ name _ impossible
                cases impossible
          | some name => exact Or.inr ⟨cache, name, rfl, rfl, rfl⟩

theorem store_effect {query : QuerySpec} {response : DnsResponse} {now : ℕ}
    {stored : ClientState lru} (kept : state.store parse latest query response now = some stored) :
    stored.cache = state.cache ∨ ∃ cache name, state.cache = some cache ∧
      parse query.host = some name ∧ Cacheable response ∧ cache.minTtlNs ≤ cache.maxTtlNs ∧
      now + lifetime cache.minTtlNs cache.maxTtlNs response ≤ latest := by
  rcases store_cases parse latest state query response now with
    ⟨same, _⟩ | ⟨cache, name, held, named, same⟩
  · left
    cases same.symm.trans kept
    rfl
  · rw [same] at kept
    rcases Option.map_eq_some_iff.mp kept with ⟨inserted, insert, rfl⟩
    rcases insert_cases latest cache (name, query.recordType) response now with
      ⟨_, done⟩ | ⟨_, _, done⟩ | ⟨cacheable, order, fits, _⟩
    · left
      cases done.symm.trans insert
      exact held.symm
    · cases done.symm.trans insert
    · right
      exact ⟨cache, name, held, named, cacheable, order, fits⟩

theorem resolve_full_hit {maxRetries : ℕ} {call : Call}
    (answered : ¬ Unanswered parse state call) :
    ∃ response, resolveFull parse latest maxRetries state call =
      some (.ok response, (state.lookup parse call.query call.askedAt).2) := by
  rw [unanswered_iff] at answered
  rw [resolveFull]
  generalize state.lookup parse call.query call.askedAt = looked at answered
  rcases looked with ⟨_ | response, looked⟩
  · exact absurd rfl answered
  · exact ⟨response, rfl⟩

/-- A call without a live entry: what its lookup leaves is settled by the attempt it
stops at. -/
theorem resolve_full_missed {maxRetries stop : ℕ} {call : Call}
    (unanswered : Unanswered parse state call)
    (stops : StopsAt call (attemptsFor maxRetries) stop) :
    resolveFull parse latest maxRetries state call =
      (settle parse latest call.query (call.attempts stop).outcome (call.settledAt stop)
        (offers (state.lookup parse call.query call.askedAt).2 call.query (stop + 1))).map
          fun after => ((call.attempts stop).outcome, after) := by
  have missed := (unanswered_iff parse).mp unanswered
  rw [resolveFull]
  generalize state.lookup parse call.query call.askedAt = looked at missed
  rcases looked with ⟨hit, looked⟩
  cases missed
  dsimp only
  rw [loop_stops parse latest stops (Nat.zero_add _) (Nat.zero_le stop), Nat.sub_zero]
  generalize settle parse latest call.query _ _ _ = settled
  cases settled <;> rfl

/-- Storing completes unless its insert panics, and counts nothing. -/
theorem store_completes {sent : Attempt} {response : DnsResponse} {now : ℕ}
    (storable : Storable latest state sent now) (outcome : sent.outcome = .ok response) :
    ∃ stored, state.store parse latest query response now = some stored ∧
      stored.offered = state.offered ∧ stored.outcomes = state.outcomes := by
  rcases store_cases parse latest state query response now with
    ⟨same, _⟩ | ⟨cache, name, held, _, same⟩
  · exact ⟨state, same, rfl, rfl⟩
  · rw [same]
    rcases insert_cases latest cache (name, query.recordType) response now with
      ⟨_, done⟩ | ⟨cacheable, bad, _⟩ | ⟨_, _, _, done⟩
    · rw [done]
      exact ⟨_, rfl, rfl, rfl⟩
    · exact absurd (storable cache response held outcome cacheable) bad
    · rw [done]
      exact ⟨_, rfl, rfl, rfl⟩

theorem settled_ok {looked stored : ClientState lru} {consumed : ℕ} {response : DnsResponse}
    {cache : Option (SimpleCache lru)}
    (offered : stored.offered = looked.offered ++ List.replicate consumed query)
    (outcomes : stored.outcomes = looked.outcomes) :
    Settled looked stored.completed cache query consumed (.ok response) := by
  constructor
  · exact offered
  · rintro _ _
    rw [← outcomes]
    rfl
  · rintro _ impossible
    cases impossible
  · rintro _ impossible
    cases impossible
  · rintro _ impossible
    cases impossible

theorem settled_error (looked : ClientState lru) (consumed : ℕ) (err : BlastDNSError) :
    Settled looked (if err.isCongestionEvidence then (offers looked query consumed).completed.failed
      else offers looked query consumed) looked.cache query consumed (.error err) := by
  constructor
  · split <;> rfl
  · rintro _ impossible
    cases impossible
  · rintro _ same evidence
    cases same
    rw [if_pos evidence]
    rfl
  · rintro _ same quiet
    cases same
    rw [quiet]
    rfl
  · rintro _ _
    split <;> rfl

theorem settle_settled {sent : Attempt} {now consumed : ℕ} {looked : ClientState lru}
    (storable : Storable latest looked sent now) :
    ∃ after, settle parse latest query sent.outcome now (offers looked query consumed) =
      some after ∧ Settled looked after looked.cache query consumed sent.outcome := by
  cases outcome : sent.outcome with
  | error err => exact ⟨_, rfl, settled_error looked consumed err⟩
  | ok response =>
      have same : Storable latest (offers looked query consumed) sent now := storable
      rcases store_completes parse latest same outcome with ⟨stored, done, offered, outcomes⟩
      refine ⟨stored.completed, ?_, settled_ok offered outcomes⟩
      rw [settle, done]
      rfl

/-- Whatever a call finds, it returns from inside its loop. -/
theorem fallback_unreached (maxRetries : ℕ) (call : Call) (query : QuerySpec)
    (after : ClientState lru) :
    resolveLoop parse latest query call (attemptsFor maxRetries) (attemptsFor maxRetries) state ≠
      some (none, after) := by
  rcases stops_exists call (attempts_for_pos maxRetries) with ⟨stop, stops⟩
  rw [loop_stops parse latest stops (Nat.zero_add _) (Nat.zero_le stop)]
  intro impossible
  rcases Option.map_eq_some_iff.mp impossible with ⟨_, _, same⟩
  cases same

theorem storable_looked_up {now : ℕ} {sent : Attempt} {call : Call}
    (storable : Storable latest state sent now) :
    Storable latest (state.lookup parse call.query call.askedAt).2 sent now := by
  rintro after response held outcome cacheable
  rcases looked_up_settings parse held with ⟨cache, before, minTtl, maxTtl, _⟩
  rw [minTtl, maxTtl]
  exact storable cache response before outcome cacheable

/-- A call without a live entry stops at its first conclusive attempt, or at the last
of as many as `max_retries` allows, and returns its outcome; a response the cache
cannot give a deadline aside. -/
theorem retry_loop_correct (maxRetries : ℕ) (state : ClientState lru) (call : Call)
    (unanswered : Unanswered parse state call) :
    ∃ stop, StopsAt call (min (maxRetries + 1) usizeMax) stop ∧
      (Storable latest state (call.attempts stop) (call.settledAt stop) →
        ∃ after, resolveFull parse latest maxRetries state call =
            some ((call.attempts stop).outcome, after) ∧
          Settled state after (state.lookup parse call.query call.askedAt).2.cache call.query
            (stop + 1) (call.attempts stop).outcome) ∧
      ∀ after, resolveLoop parse latest call.query call (attemptsFor maxRetries)
        (attemptsFor maxRetries) (state.lookup parse call.query call.askedAt).2 ≠
          some (none, after) := by
  rcases stops_exists call (attempts_for_pos maxRetries) with ⟨stop, stops⟩
  refine ⟨stop, stops, ?_, fallback_unreached parse latest maxRetries call call.query⟩
  intro storable
  rcases settle_settled parse latest (storable_looked_up parse latest storable) with
    ⟨after, done, settled⟩
  refine ⟨after, ?_, settled_looked_up parse settled⟩
  rw [resolve_full_missed parse latest unanswered stops, done]
  rfl

end Loop

def labels (host : String) : Option (List String) := some (host.splitOn ".")

def freshClient : ClientState (listed : LruCache (List String × ℕ) CacheEntry) where
  cache := newCache listed {}

theorem fresh_unanswered (call : Call) : Unanswered labels freshClient call := by
  rintro cache name held _
  cases held
  rfl

def declinedOnce : Call where
  host := "example.com"
  recordType := 1
  askedAt := 0
  attempts attempt :=
    .answered (.ok (if attempt = 0 then { shortAnswer with responseCode := 2 } else shortAnswer))
  settledAt attempt := attempt + 1

theorem declined_once_stops {attempts : ℕ} (more : 1 < attempts) :
    StopsAt declinedOnce attempts 1 := by
  refine ⟨more, ?_, Or.inl rfl⟩
  rintro attempt before
  cases Nat.lt_one_iff.mp before
  rfl

theorem retry_loop_correct_declined :
    ∃ after, resolveFull labels (10 ^ 18) 10 freshClient declinedOnce =
        some (.ok shortAnswer, after) ∧
      after.offered.length = 2 ∧ after.outcomes = ⟨1, 0⟩ := by
  rcases retry_loop_correct labels (10 ^ 18) 10 freshClient declinedOnce
    (fresh_unanswered declinedOnce) with ⟨stop, stops, returns, _⟩
  have two : 1 < min (10 + 1) usizeMax := by decide
  cases stops_unique stops (declined_once_stops two)
  have storable : Storable (10 ^ 18) freshClient (declinedOnce.attempts 1)
      (declinedOnce.settledAt 1) := by
    rintro cache response held same _
    cases held
    cases same
    decide
  rcases returns storable with ⟨after, returned, settled⟩
  refine ⟨after, returned, ?_, settled.counted shortAnswer rfl⟩
  rw [settled.offered]
  rfl

/-- Timeouts, until the last of `usize::MAX + 1` attempts brings an address. -/
def answeredLate : Call where
  host := "example.com"
  recordType := 1
  askedAt := 0
  attempts attempt :=
    .answered (if attempt < usizeMax then .error (.queryTimedOut (.v4 ⟨1, 1, 1, 1⟩ 53) 1000000000)
      else .ok shortAnswer)
  settledAt attempt := attempt + 1

theorem answered_late_inconclusive {attempt : ℕ} (early : attempt < usizeMax) :
    answeredLate.attempts attempt =
      .answered (.error (.queryTimedOut (.v4 ⟨1, 1, 1, 1⟩ 53) 1000000000)) := by
  simp [answeredLate, early]

theorem answered_late_last : answeredLate.attempts usizeMax = .answered (.ok shortAnswer) := by
  simp [answeredLate]

theorem answered_late_stops (attempts stop : ℕ) (within : stop < attempts) (early : stop ≤ usizeMax)
    (ends : stop = usizeMax ∨ stop + 1 = attempts) : StopsAt answeredLate attempts stop := by
  refine ⟨within, ?_, ?_⟩
  · rintro attempt before
    rw [answered_late_inconclusive (lt_of_lt_of_le before early)]
    rfl
  · rcases ends with rfl | last
    · left
      rw [answered_late_last]
      rfl
    · exact Or.inr last

/-- There is no attempt after `usize::MAX`: the answer of the next one is not asked for. -/
theorem saturated_retries_stop_short :
    Unanswered labels freshClient answeredLate ∧
      StopsAt answeredLate (usizeMax + 1) usizeMax ∧
      conclusive (answeredLate.attempts usizeMax) = true ∧
      ∃ answer after, resolveFull labels (10 ^ 18) usizeMax freshClient answeredLate =
          some (answer, after) ∧ answer ≠ (answeredLate.attempts usizeMax).outcome := by
  have unanswered := fresh_unanswered answeredLate
  have positive : 0 < usizeMax := by
    rw [usizeMax]
    norm_num
  have allowed : attemptsFor usizeMax = usizeMax := min_eq_right (Nat.le_succ usizeMax)
  have stops : StopsAt answeredLate (attemptsFor usizeMax) (usizeMax - 1) := by
    rw [allowed]
    exact answered_late_stops usizeMax (usizeMax - 1) (by omega) (by omega) (Or.inr (by omega))
  have returned := resolve_full_missed labels (10 ^ 18) unanswered stops
  rw [answered_late_inconclusive (by omega)] at returned
  refine ⟨unanswered, ?_, ?_, _, _, returned, ?_⟩
  · exact answered_late_stops _ usizeMax (Nat.lt_succ_self _) le_rfl (Or.inl rfl)
  · rw [answered_late_last]
    rfl
  · rw [answered_late_last]
    rintro impossible
    cases impossible

end BlastDns.RetryLoop
